import MarvellBoot.UBoot.EnvMmc.Impl

namespace UBoot.EnvMmc

open Function List

variable {accept : List (List UInt8)} {s : State}

variable {crc32 : List UInt8 → UInt32} {copy : Bool} {data : List UInt8}

def index (copy : Bool) : Nat := if copy then 2 else 1

lemma index_ne (copy : Bool) : index copy ≠ index (!copy) := by
  cases copy <;> decide

def reads (card : Card) : RelocateIo where
  initError := none
  addrError := false
  read1 := some (card false)
  read2 := some (card true)

structure Taken (crc32 : List UInt8 → UInt32) (card : Card) (copy : Bool) : Prop where
  valid : crcOk crc32 (card copy) = true
  newer : crcOk crc32 (card !copy) = true → checkSerial (card false).flags (card true).flags = index copy

lemma envRelocateSpec_of_taken {card : Card} (h : Taken crc32 card copy) (ram : Ram)
    : envRelocateSpec crc32 (reads card) ram
      = ({ envValid := index copy, envFlags := (card copy).flags }, .env (card copy).data) := by
  have hvalid := h.valid
  have hnewer := h.newer
  unfold envRelocateSpec reads
  cases copy with
  | false =>
    cases hother : crcOk crc32 (card true) with
    | false => simp [Option.filter, hvalid, hother, index]
    | true =>
      have hserial := hnewer hother
      simp [Option.filter, hvalid, hother, hserial, index]
  | true =>
    cases hother : crcOk crc32 (card false) with
    | false => simp [Option.filter, hvalid, hother, index]
    | true =>
      have hserial := hnewer hother
      simp [Option.filter, hvalid, hother, hserial, index]

lemma checkSerial_eq_index (flags1 flags2 : UInt8) : ∃ copy, checkSerial flags1 flags2 = index copy := by
  unfold checkSerial
  split
  . exact ⟨true, rfl⟩
  split
  . exact ⟨false, rfl⟩
  split
  . exact ⟨false, rfl⟩
  . split
    . exact ⟨true, rfl⟩
    . exact ⟨false, rfl⟩

lemma exists_taken {card : Card} (h : ∃ copy, crcOk crc32 (card copy) = true) : ∃ copy, Taken crc32 card copy := by
  have ⟨copy, hvalid⟩ := h
  cases hother : crcOk crc32 (card !copy) with
  | false =>
    refine ⟨copy, hvalid, ?_⟩
    rw [hother]
    intro hfalse
    contradiction
  | true =>
    have ⟨newest, hserial⟩ := checkSerial_eq_index (card false).flags (card true).flags
    refine ⟨newest, ?_, fun _ => hserial⟩
    cases copy <;> cases newest <;> assumption

def envNew (crc32 : List UInt8 → UInt32) (ram : Ram) (data : List UInt8) : EnvT where
  crc := crc32 data
  flags := ram.envFlags + 1
  data := data

lemma crcOk_envNew (ram : Ram) (data : List UInt8) : crcOk crc32 (envNew crc32 ram data) = true := by
  simp [crcOk, envNew]

def target (ram : Ram) : Bool := ram.envValid == 1

/--
The environments that a reboot may import after a call of `saveenv`: the one that has been saved, or
that the power loss came too late for, and else the one before.
-/
def acceptable (crc32 : List UInt8 → UInt32) (io : SaveIo) (ram : Ram) (accept : List (List UInt8))
    : List (List UInt8) :=
  match io.initError, io.exported, io.addrError, io.write with
  | none, .ok data, false, .done => [data]
  | none, .ok data, false, .cut left =>
    if left = envNew crc32 ram data then [data] else accept
  | _, _, _, _ => accept

structure State where
  card : Card
  ram : Option Ram
  accept : List (List UInt8)

def State.save (crc32 : List UInt8 → UInt32) (s : State) (io : SaveIo) (ram : Ram) : State :=
  let accept := acceptable crc32 io ram s.accept
  match saveenv crc32 io ram s.card with
  | .returned _ ram card => { card, ram := some ram, accept }
  | .cut card => { card, ram := none, accept }

def Write.Leaves (crc32 : List UInt8 → UInt32) (old new : EnvT) : Write → Prop
  | .done => True
  | .failed left => left = old ∨ crcOk crc32 left = false ∨ left = new
  | .cut left => left = old ∨ crcOk crc32 left = false ∨ left = new

inductive Run (crc32 : List UInt8 → UInt32) (cond : Ram → Card → SaveIo → Prop) : State → Prop where
  | boot {card : Card} {ram₀ ram : Ram} {data : List UInt8} :
    (∃ copy, crcOk crc32 (card copy) = true) →
    envRelocateSpec crc32 (reads card) ram₀ = (ram, .env data) →
    Run crc32 cond { card, ram := some ram, accept := [data] }
  | save {s : State} {ram : Ram} {io : SaveIo} :
    Run crc32 cond s → s.ram = some ram →
    (∀ data, io.exported = .ok data → io.write.Leaves crc32 (s.card (target ram)) (envNew crc32 ram data)) →
    cond ram s.card io → Run crc32 cond (s.save crc32 io ram)
  | reboot {s : State} {ram₀ ram : Ram} {data : List UInt8} :
    Run crc32 cond s → envRelocateSpec crc32 (reads s.card) ram₀ = (ram, .env data) →
    Run crc32 cond { s with ram := some ram, accept := [data] }

def Survives (crc32 : List UInt8 → UInt32) (s : State) : Prop :=
  ∀ ram₀, ∃ ram data, envRelocateSpec crc32 (reads s.card) ram₀ = (ram, .env data) ∧ data ∈ s.accept

def SerialNewer (crc32 : List UInt8 → UInt32) (ram : Ram) (card : Card) (io : SaveIo) : Prop :=
  ∀ data, io.exported = .ok data → io.write = .done ∨ io.write = .cut (envNew crc32 ram data) →
    let card := Function.update card (target ram) (envNew crc32 ram data)
    checkSerial (card false).flags (card true).flags = index (target ram)

-- The second condition rules out a write that is complete although it is reported to have failed.
structure Sound (crc32 : List UInt8 → UInt32) (ram : Ram) (card : Card) (io : SaveIo) : Prop where
  newer : SerialNewer crc32 ram card io
  failed : ∀ data, io.exported = .ok data → io.write ≠ .failed (envNew crc32 ram data)

structure On (crc32 : List UInt8 → UInt32) (card : Card) (ram : Ram) (accept : List (List UInt8))
    (copy : Bool) : Prop where
  envValid : ram.envValid = index copy
  valid : crcOk crc32 (card copy) = true
  data : (card copy).data ∈ accept
  other : crcOk crc32 (card !copy) = true → (card !copy).data ∈ accept
    ∨ checkSerial (card false).flags (card true).flags = index copy

def Inv (crc32 : List UInt8 → UInt32) (s : State) : Prop :=
  (∃ copy, Taken crc32 s.card copy ∧ (s.card copy).data ∈ s.accept)
    ∧ ∀ ram, s.ram = some ram → ∃ copy, On crc32 s.card ram s.accept copy

lemma On.exists_taken {card : Card} {ram : Ram} (h : On crc32 card ram accept copy)
    : ∃ taken, Taken crc32 card taken ∧ (card taken).data ∈ accept := by
  have ⟨taken, htaken⟩ := EnvMmc.exists_taken ⟨copy, h.valid⟩
  refine ⟨taken, htaken, ?_⟩
  by_cases heq : taken = copy
  . rw [heq]
    exact h.data
  have hnot : taken = !copy := by
    cases taken <;> cases copy <;> simp_all
  rw [hnot] at htaken ⊢
  cases h.other htaken.valid with
  | inl hdata => exact hdata
  | inr hserial =>
    have hnewer := htaken.newer (by rw [Bool.not_not]; exact h.valid)
    rw [hserial] at hnewer
    exact absurd hnewer (index_ne copy)

lemma target_of_envValid {ram : Ram} (h : ram.envValid = index copy) : target ram = !copy := by
  unfold target
  rw [h]
  cases copy <;> rfl

lemma toggle_index {ram : Ram} (h : ram.envValid = index copy)
    : (if ram.envValid = 2 then 1 else 2) = index (!copy) := by
  rw [h]
  cases copy <;> rfl

lemma On.withFlags {card : Card} {ram : Ram} (h : On crc32 card ram accept copy) (flags : UInt8)
    : On crc32 card { ram with envFlags := flags } accept copy :=
  { h with }

lemma inv_of_on {card : Card} {ram : Ram} (copy : Bool)
    (h : On crc32 card ram accept copy) : Inv crc32 { card, ram := some ram, accept } := by
  refine ⟨h.exists_taken, ?_⟩
  intro ram' heq
  injection heq with heq
  rw [← heq]
  exact ⟨copy, h⟩

lemma update_not_self (card : Card) (copy : Bool) (env : EnvT) : update card (!copy) env copy = card copy := by
  apply update_of_ne
  cases copy <;> decide

lemma On.write {card : Card} {ram : Ram} {accept' : List (List UInt8)} {left : EnvT}
    (h : On crc32 card ram accept copy) (hsub : ∀ data ∈ accept, data ∈ accept')
    (hleft : left = card (!copy) ∨ crcOk crc32 left = false ∨ left.data ∈ accept')
    : On crc32 (update card (!copy) left) ram accept' copy := by
  have hsame := update_not_self card copy left
  constructor
  . exact h.envValid
  . rw [hsame]
    exact h.valid
  . rw [hsame]
    exact hsub _ h.data
  rw [update_self]
  intro hvalid
  cases hleft with
  | inl hold =>
    rw [hold] at hvalid ⊢
    rw [update_eq_self]
    cases h.other hvalid with
    | inl hdata => exact .inl (hsub _ hdata)
    | inr hserial => exact .inr hserial
  | inr hnew =>
    cases hnew with
    | inl hbad =>
      rw [hbad] at hvalid
      contradiction
    | inr hdata => exact .inl hdata

lemma taken_envNew {card : Card} {ram : Ram}
    (hserial : checkSerial (update card copy (envNew crc32 ram data) false).flags
      (update card copy (envNew crc32 ram data) true).flags = index copy)
    : Taken crc32 (update card copy (envNew crc32 ram data)) copy := by
  refine ⟨?_, fun _ => hserial⟩
  rw [update_self]
  apply crcOk_envNew

lemma inv_save {ram : Ram} {io : SaveIo} (h : Inv crc32 s) (hram : s.ram = some ram)
    (hleaves : ∀ data, io.exported = .ok data → io.write.Leaves crc32 (s.card (target ram)) (envNew crc32 ram data))
    (hcond : Sound crc32 ram s.card io) : Inv crc32 (s.save crc32 io ram) := by
  have ⟨copy, hon⟩ := h.2 ram hram
  have htarget := target_of_envValid hon.envValid
  have hindex := toggle_index hon.envValid
  rcases io with ⟨initError, exported, addrError, write⟩
  unfold State.save saveenv acceptable
  cases initError with
  | some errmsg => exact inv_of_on copy hon
  | none =>
    cases exported with
    | error ret => exact inv_of_on copy hon
    | ok data =>
      cases addrError with
      | true => exact inv_of_on copy (hon.withFlags _)
      | false =>
        have hserial := hcond.newer data rfl
        have hleaves := hleaves data rfl
        dsimp only at hserial hleaves ⊢
        unfold target at htarget hserial hleaves
        rw [htarget] at hserial hleaves ⊢
        cases write with
        | done =>
          have htaken := taken_envNew (hserial (.inl rfl))
          apply inv_of_on (!copy)
          constructor
          . exact hindex
          . exact htaken.valid
          . change (update s.card (!copy) (envNew crc32 ram data) (!copy)).data ∈ _
            rw [update_self]
            exact mem_singleton_self data
          . intro hvalid
            exact .inr (htaken.newer hvalid)
        | failed left =>
          simp only [Bool.false_eq_true, if_false]
          apply inv_of_on copy
          apply (hon.withFlags _).write (fun _ hdata => hdata)
          rcases hleaves with hold | hbad | hnew
          . exact .inl hold
          . exact .inr (.inl hbad)
          . exact absurd (congrArg Write.failed hnew) (hcond.failed data rfl)
        | cut left =>
          simp only [Bool.false_eq_true, if_false]
          refine ⟨?_, fun ram hram => by contradiction⟩
          dsimp only
          by_cases hnew : left = envNew crc32 ram data
          . rw [if_pos hnew, hnew]
            refine ⟨!copy, taken_envNew (hserial (.inr (by rw [hnew]))), ?_⟩
            rw [update_self]
            exact mem_singleton_self data
          rw [if_neg hnew]
          have hwrite : On crc32 (update s.card (!copy) left) ram s.accept copy := by
            apply hon.write (fun _ hdata => hdata)
            cases hleaves with
            | inl hold => exact .inl hold
            | inr hrest =>
              cases hrest with
              | inl hbad => exact .inr (.inl hbad)
              | inr hnew' => exact absurd hnew' hnew
          exact hwrite.exists_taken

lemma inv_boot {card : Card} {ram₀ ram : Ram} (hvalid : ∃ copy, crcOk crc32 (card copy) = true)
    (hboot : envRelocateSpec crc32 (reads card) ram₀ = (ram, .env data))
    : Inv crc32 { card, ram := some ram, accept := [data] } := by
  have ⟨copy, htaken⟩ := exists_taken hvalid
  rw [envRelocateSpec_of_taken htaken] at hboot
  cases hboot
  apply inv_of_on copy
  constructor
  . rfl
  . exact htaken.valid
  . exact mem_singleton_self _
  . intro hother
    exact .inr (htaken.newer hother)

lemma run_inv (h : Run crc32 (Sound crc32) s) : Inv crc32 s := by
  induction h with
  | boot hvalid hboot => exact inv_boot hvalid hboot
  | save _ hram hleaves hcond ih => exact inv_save ih hram hleaves hcond
  | reboot _ hboot ih =>
    have ⟨copy, htaken, _⟩ := ih.1
    exact inv_boot ⟨copy, htaken.valid⟩ hboot

theorem run_survives (crc32 : List UInt8 → UInt32) (s : State) (h : Run crc32 (Sound crc32) s)
    : Survives crc32 s := by
  intro ram₀
  have ⟨copy, htaken, hdata⟩ := (run_inv h).1
  exact ⟨_, _, envRelocateSpec_of_taken htaken ram₀, hdata⟩

lemma checkSerial_succ (flags : UInt8) : checkSerial flags (flags + 1) = 2 ∧ checkSerial (flags + 1) flags = 1 := by
  have h : ∀ n < 256, checkSerial (UInt8.ofNat n) (UInt8.ofNat n + 1) = 2
      ∧ checkSerial (UInt8.ofNat n + 1) (UInt8.ofNat n) = 1 := by
    decide +kernel
  have hflags := h flags.toNat flags.toNat_lt
  rw [UInt8.ofNat_toNat] at hflags
  exact hflags

lemma serialNewer_of_flags_eq {ram : Ram} {card : Card} (io : SaveIo)
    (hvalid : ram.envValid = index copy) (hflags : ram.envFlags = (card copy).flags)
    : SerialNewer crc32 ram card io := by
  intro data _ _
  have ⟨hsucc, hsucc'⟩ := checkSerial_succ ram.envFlags
  rw [target_of_envValid hvalid]
  cases copy with
  | false => simpa [envNew, hflags, index, update] using hflags ▸ hsucc
  | true => simpa [envNew, hflags, index, update] using hflags ▸ hsucc'

def NotFailed (_ : Ram) (_ : Card) (io : SaveIo) : Prop := io.addrError = false ∧ ∀ left, io.write ≠ .failed left

def InStep (s : State) : Prop :=
  ∀ ram, s.ram = some ram → ∃ copy, ram.envValid = index copy ∧ ram.envFlags = (s.card copy).flags

lemma inStep_boot {card : Card} {ram₀ ram : Ram} (htaken : Taken crc32 card copy)
    (hboot : envRelocateSpec crc32 (reads card) ram₀ = (ram, .env data)) : InStep ⟨card, some ram, accept⟩ := by
  rw [envRelocateSpec_of_taken htaken] at hboot
  cases hboot
  rintro _ ⟨⟩
  exact ⟨_, rfl, rfl⟩

lemma inStep_save {ram : Ram} {io : SaveIo} (h : InStep s) (hram : s.ram = some ram) (hio : NotFailed ram s.card io)
    : InStep (s.save crc32 io ram) := by
  rw [InStep, hram] at h
  obtain ⟨initError, exported, _, write⟩ := io
  obtain ⟨rfl, hwrite⟩ := hio
  cases initError with
  | some _ => exact h
  | none =>
    cases exported with
    | error _ => exact h
    | ok _ =>
      cases write with
      | failed _ => exact absurd rfl (hwrite _)
      | cut _ => rintro _ ⟨⟩
      | done =>
        obtain ⟨_, hvalid, _⟩ := h ram rfl
        rintro _ ⟨⟩
        refine ⟨target ram, ?_, by simp [State.save, saveenv, target]⟩
        rw [target_of_envValid hvalid]
        exact toggle_index hvalid

lemma run_inStep (h : Run crc32 NotFailed s) : Inv crc32 s ∧ InStep s := by
  induction h with
  | boot hvalid hboot =>
    obtain ⟨_, htaken⟩ := exists_taken hvalid
    exact ⟨inv_boot hvalid hboot, inStep_boot htaken hboot⟩
  | save _ hram hleaves hcond ih =>
    obtain ⟨_, hvalid, hflags⟩ := ih.2 _ hram
    have hsound : Sound crc32 _ _ _ := ⟨serialNewer_of_flags_eq _ hvalid hflags, fun _ _ => hcond.2 _⟩
    exact ⟨inv_save ih.1 hram hleaves hsound, inStep_save ih.2 hram hcond⟩
  | reboot _ hboot ih =>
    obtain ⟨_, htaken, _⟩ := ih.1.1
    exact ⟨inv_boot ⟨_, htaken.valid⟩ hboot, inStep_boot htaken hboot⟩

theorem survives_notFailed (h : Run crc32 NotFailed s) : Survives crc32 s := by
  obtain ⟨_, htaken, hdata⟩ := (run_inStep h).1.1
  exact fun _ => ⟨_, _, envRelocateSpec_of_taken htaken _, hdata⟩

namespace Sample

def crc : List UInt8 → UInt32 := fun _ => 0

def env (flags : UInt8) (data : List UInt8) : EnvT where
  crc := 0
  flags := flags
  data := data

def card : Card := fun copy => if copy then env 253 [2] else env 254 [1]

def ram (flags : UInt8) : Ram where
  envValid := 1
  envFlags := flags

def save (data : List UInt8) (write : Write) : SaveIo where
  initError := none
  exported := .ok data
  addrError := false
  write := write

def booted : State where
  card := card
  ram := some (ram 254)
  accept := [[1]]

end Sample

open Sample

lemma boot_sample (cond : Ram → Card → SaveIo → Prop) : Run crc cond booted := by
  have hload : envRelocateSpec crc (reads card) (ram 0) = (ram 254, .env [1]) := rfl
  exact .boot ⟨false, rfl⟩ hload

theorem run_survives_saved
    : Survives Sample.crc (Sample.booted.save Sample.crc (Sample.save [3] .done) (Sample.ram 254)) := by
  have hvalid : (ram 254).envValid = index false := rfl
  apply run_survives
  apply (boot_sample _).save rfl
  . intro data _
    trivial
  . exact ⟨@serialNewer_of_flags_eq crc false (ram 254) card _ hvalid rfl, nofun⟩

-- A write fails with serial 255, the next one is done with serial 0 and 254 is taken for newer.
theorem not_survives_failedWrite
    : ∃ s, Run Sample.crc (fun _ _ _ => True) s ∧ s.accept = [[4]]
      ∧ (envRelocateSpec Sample.crc (reads s.card) (Sample.ram 0)).2 = .env [1] := by
  have hfailed : Run crc (fun _ _ _ => True) (booted.save crc (save [3] (.failed (env 253 [2]))) (ram 254)) := by
    apply (boot_sample _).save rfl
    . intro data _
      exact .inl rfl
    . trivial
  have hsaved : Run crc (fun _ _ _ => True) (State.save crc
      (booted.save crc (save [3] (.failed (env 253 [2]))) (ram 254))
      (save [4] .done) (ram 255)) := by
    apply hfailed.save rfl
    . intro data _
      trivial
    . trivial
  exact ⟨_, hsaved, rfl, by decide +kernel⟩

theorem survives_saved : Survives crc (booted.save crc (save [3] .done) (ram 254)) :=
  survives_notFailed ((boot_sample _).save rfl (fun _ _ => trivial) ⟨rfl, nofun⟩)

end UBoot.EnvMmc
