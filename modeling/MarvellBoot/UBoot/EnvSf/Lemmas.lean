import MarvellBoot.Lib.Text
import MarvellBoot.UBoot.EnvSf.Impl

namespace UBoot.EnvSf

open Mem Flash Nat

variable {D : Nat → (Int → UInt8) → Prop} {I : (Int → UInt8) → Prop} {envValid : Nat} {accept : List UInt8 → Prop}
  {x : Int}

variable {cfg : Config} {crc32 : List UInt8 → UInt32} {copy : Bool} {m m' : Int → UInt8} {data : List UInt8} {n : Nat}

def index (copy : Bool) : Nat := if copy then 2 else 1

structure Config.WF (cfg : Config) : Prop where
  header : envHeaderSize ≤ cfg.envSize
  sect : 0 < cfg.envSectSize
  apart : ∀ copy x, (cfg.offset copy : Int) ≤ x ∧ x < cfg.offset copy + cfg.eraseLen →
    ¬((cfg.offset (!copy) : Int) ≤ x ∧ x < cfg.offset (!copy) + cfg.eraseLen)

lemma Config.WF.envSize_le (hwf : cfg.WF) : cfg.envSize ≤ cfg.eraseLen := by
  have hsect := hwf.sect
  unfold eraseLen sector
  split
  . have hdiv := div_add_mod cfg.envSize cfg.envSectSize
    rw [Nat.add_mul, Nat.mul_comm (cfg.envSize / cfg.envSectSize)]
    split
    . have := mod_lt cfg.envSize hsect
      omega
    . omega
  . omega

def Outside (m m' : Int → UInt8) (a : Int) (n : Nat) : Prop := ∀ x, ¬(a ≤ x ∧ x < a + n) → m' x = m x

section

variable {m m' m'' : Int → UInt8} {a : Int} {n : Nat}

lemma outside_erase : Outside m (erase m a n) a n := fun _ => erase_of_not_mem m

lemma outside_program : Outside m (program m a data) a data.length := fun _ => program_of_not_mem m

lemma readCopy_congr (hwf : cfg.WF)
    (h : ∀ x, (cfg.offset copy : Int) ≤ x → x < cfg.offset copy + cfg.envSize → m' x = m x)
    : readCopy cfg m' copy = readCopy cfg m copy := by
  have hheader : 5 ≤ cfg.envSize := hwf.header
  unfold readCopy envHeaderSize
  congr 1
  . apply load_congr
    intro i hi
    exact h _ (by omega) (by omega)
  . exact h _ (by omega) (by omega)
  . apply load_congr
    intro i hi
    exact h _ (by omega) (by omega)

lemma readCopy_of_outside (hwf : cfg.WF) (h : Outside m m' a n)
    (ha : (cfg.offset (!copy) : Int) ≤ a) (hn : a + n ≤ cfg.offset (!copy) + cfg.eraseLen)
    : readCopy cfg m' copy = readCopy cfg m copy := by
  have hsize := hwf.envSize_le
  apply readCopy_congr hwf
  intro x hx hx'
  apply h
  intro hin
  exact hwf.apart copy x (by omega) (by omega)

lemma readCopy_store (copy : Bool) (hdata : data.length + envHeaderSize = cfg.envSize)
    : readCopy cfg (store m (cfg.offset copy) (envNew crc32 data).bytes) copy = envNew crc32 data := by
  have hdataLen : cfg.envSize - envHeaderSize = data.length := by omega
  have htext := @text_store_self m (cfg.offset copy) (le32 (crc32 data) ++ [activeFlag] ++ data)
  rw [text_append, text_append, text_cons] at htext
  have ⟨⟨hcrc, hflags, _⟩, hdata⟩ := htext
  unfold readCopy envNew
  rw [hdataLen]
  congr 1

lemma crcOk_envNew (data : List UInt8) : crcOk crc32 (envNew crc32 data) = true := by
  simp [crcOk, envNew]

lemma length_envNew (hdata : data.length + envHeaderSize = cfg.envSize)
    : (envNew crc32 data).bytes.length = cfg.envSize := by
  unfold envHeaderSize at hdata
  simp [EnvT.bytes, envNew, le32]
  omega

end

def Op.LeftBehind (op : Op) (left : Int → UInt8) : Prop := (∃ ret, op = .failed ret left) ∨ op = .cut left

section

variable (cfg crc32)

def erased (copy : Bool) (m : Int → UInt8) : Int → UInt8 := erase m (cfg.offset copy) cfg.eraseLen

def written (copy : Bool) (data : List UInt8) (m : Int → UInt8) : Int → UInt8 :=
  program (erased cfg copy m) (cfg.offset copy) (envNew crc32 data).bytes

def restored (copy : Bool) (data : List UInt8) (m : Int → UInt8) : Int → UInt8 :=
  if cfg.envSize < cfg.envSectSize then
    program (written cfg crc32 copy data m) (cfg.offset copy + cfg.envSize)
      (load m (cfg.offset copy + cfg.envSize) (cfg.envSectSize - cfg.envSize))
  else
    written cfg crc32 copy data m

/--
What is assumed of the operations of one call that writes to `copy`: an error is not 0, an operation changes
nothing outside of its range, and a copy that has been changed without being completely written fails its CRC.
-/
structure Leaves (io : SaveIo) (copy : Bool) (m : Int → UInt8) : Prop where
  exportError : ∀ ret, io.exported = .error ret → ret ≠ 0
  exported : ∀ data, io.exported = .ok data → data.length + envHeaderSize = cfg.envSize
  failed : ∀ op ∈ [io.erase, io.writeEnv, io.writeSaved, io.writeFlag], ∀ ret left, op = .failed ret left → ret ≠ 0
  erased : crcOk crc32 (readCopy cfg (erased cfg copy m) copy) = false
  erase : ∀ left, io.erase.LeftBehind left → Outside m left (cfg.offset copy) cfg.eraseLen
    ∧ (readCopy cfg left copy = readCopy cfg m copy ∨ crcOk crc32 (readCopy cfg left copy) = false)
  writeEnv : ∀ data left, io.exported = .ok data → io.writeEnv.LeftBehind left →
    Outside (EnvSf.erased cfg copy m) left (cfg.offset copy) cfg.envSize
      ∧ (readCopy cfg left copy = envNew crc32 data ∨ crcOk crc32 (readCopy cfg left copy) = false)
  writeSaved : ∀ data left, io.exported = .ok data → io.writeSaved.LeftBehind left →
    Outside (written cfg crc32 copy data m) left (cfg.offset copy + cfg.envSize) (cfg.envSectSize - cfg.envSize)
  writeFlag : ∀ data left, io.exported = .ok data → io.writeFlag.LeftBehind left →
    Outside (restored cfg crc32 copy data m) left (cfg.offset (!copy) + 4) 1

structure Completed (io : SaveIo) (copy : Bool) (data : List UInt8) : Prop where
  probe : io.probeError = false
  exported : io.exported = .ok data
  saved : cfg.envSize < cfg.envSectSize → io.memalign = true ∧ io.readRet = 0
  erase : io.erase = .done
  writeEnv : io.writeEnv = .done ∨ ∃ left, io.writeEnv.LeftBehind left ∧ readCopy cfg left copy = envNew crc32 data

def Interrupted (io : SaveIo) (copy : Bool) (m m' : Int → UInt8) : Prop :=
  (readCopy cfg m' (!copy) = readCopy cfg m (!copy)
    ∧ (readCopy cfg m' copy = readCopy cfg m copy ∨ crcOk crc32 (readCopy cfg m' copy) = false))
  ∨ ∃ data, Completed cfg crc32 io copy data ∧ readCopy cfg m' copy = envNew crc32 data
    ∧ (readCopy cfg m' (!copy)).crc = (readCopy cfg m (!copy)).crc
    ∧ (readCopy cfg m' (!copy)).data = (readCopy cfg m (!copy)).data

end

def Saved.Ends (s : Saved) (envValid : Nat) (D : Nat → (Int → UInt8) → Prop) (I : (Int → UInt8) → Prop) : Prop :=
  match s with
  | .returned ret envValid' m => (ret = 0 ∧ D envValid' m) ∨ (ret ≠ 0 ∧ envValid' = envValid ∧ I m)
  | .cut m => I m

lemma Saved.Ends.mono {s : Saved} {D' : Nat → (Int → UInt8) → Prop}
    (h : s.Ends envValid D I) (hD : ∀ envValid m, D envValid m → D' envValid m) : s.Ends envValid D' I := by
  cases s with
  | returned ret envValid' m => exact h.imp_left fun h => ⟨h.1, hD _ _ h.2⟩
  | cut m => exact h

lemma Op.andThen_ends {op : Op} {full : Int → UInt8} {next : (Int → UInt8) → Saved}
    (hfailed : ∀ ret left, op = .failed ret left → ret ≠ 0) (hleft : ∀ left, op.LeftBehind left → I left)
    (hnext : op = .done → (next full).Ends envValid D I) : (op.andThen envValid full next).Ends envValid D I := by
  cases op with
  | done => exact hnext rfl
  | failed ret left => exact .inr ⟨hfailed ret left rfl, rfl, hleft left (.inl ⟨ret, rfl⟩)⟩
  | cut left => exact hleft left (.inr rfl)

section

variable {io : SaveIo} {copy : Bool} {m : Int → UInt8} {data : List UInt8}

section

variable (hwf : cfg.WF)

include hwf

section

variable (hdata : data.length + envHeaderSize = cfg.envSize)

include hdata

lemma written_eq
    : written cfg crc32 copy data m = store (erased cfg copy m) (cfg.offset copy) (envNew crc32 data).bytes := by
  have hsize := hwf.envSize_le
  apply program_eq_store
  rw [length_envNew hdata]
  intro x hx hx'
  exact if_pos ⟨hx, by omega⟩

lemma readCopy_written : readCopy cfg (written cfg crc32 copy data m) copy = envNew crc32 data := by
  rw [written_eq hwf hdata, readCopy_store copy hdata]

end

lemma readCopy_of_outside_saved
    (h : Outside m m' (cfg.offset copy + cfg.envSize) n) : readCopy cfg m' copy = readCopy cfg m copy := by
  apply readCopy_congr hwf
  intro x hx hx'
  apply h
  omega

lemma outside_erased_written (hdata : data.length + envHeaderSize = cfg.envSize)
    : Outside m (written cfg crc32 copy data m) (cfg.offset copy) cfg.eraseLen := by
  have hsize := hwf.envSize_le
  intro x hx
  have hout : ¬((cfg.offset copy : Int) ≤ x ∧ x < cfg.offset copy + (envNew crc32 data).bytes.length) := by
    rw [length_envNew hdata]
    omega
  exact (program_of_not_mem _ hout).trans (erase_of_not_mem m hx)

end

lemma Outside.trans {m'' : Int → UInt8} {a b : Int} {k : Nat} (h : Outside m m' a n)
    (h' : Outside m' m'' b k) (hb : a ≤ b) (hk : b + k ≤ a + n) : Outside m m'' a n := by
  intro x hx
  rw [h' x (by omega), h x hx]

lemma eraseLen_of_lt (h : cfg.envSize < cfg.envSectSize) : cfg.eraseLen = cfg.envSectSize := by
  unfold Config.eraseLen Config.sector
  rw [if_neg (by omega), Nat.one_mul]

section

variable (hwf : cfg.WF)

include hwf

section

variable (hdata : data.length + envHeaderSize = cfg.envSize)

include hdata

lemma outside_restored : Outside m (restored cfg crc32 copy data m) (cfg.offset copy) cfg.eraseLen := by
  unfold restored
  split
  . next hlt =>
    apply (outside_erased_written hwf hdata).trans outside_program
    . omega
    . rw [length_load, eraseLen_of_lt hlt]
      omega
  . exact outside_erased_written hwf hdata

lemma readCopy_restored : readCopy cfg (restored cfg crc32 copy data m) copy = envNew crc32 data := by
  unfold restored
  split
  . rw [readCopy_of_outside_saved hwf outside_program, readCopy_written hwf hdata]
  . exact readCopy_written hwf hdata

end

lemma readCopy_flag (h : Outside m m' (cfg.offset copy + 4) 1)
    : readCopy cfg m' copy = { readCopy cfg m copy with flags := m' (cfg.offset copy + 4) }
      ∧ readCopy cfg m' (!copy) = readCopy cfg m (!copy) := by
  have hheader : 5 ≤ cfg.envSize := hwf.header
  have hsize := hwf.envSize_le
  constructor
  . unfold readCopy
    congr 1
    . apply load_congr
      intro i hi
      apply h
      omega
    apply load_congr
    intro i hi
    apply h
    omega
  apply readCopy_of_outside hwf h
  . rw [Bool.not_not]
    omega
  . rw [Bool.not_not]
    omega

lemma flashEnv_ends (hl : Leaves cfg crc32 io copy m) (hprobe : io.probeError = false)
    (hexp : io.exported = .ok data) (hsaved : cfg.envSize < cfg.envSectSize → io.memalign = true ∧ io.readRet = 0)
    : (flashEnv cfg io (envNew crc32 data)
        (if cfg.envSize < cfg.envSectSize then
          some (load m (cfg.offset copy + cfg.envSize) (cfg.envSectSize - cfg.envSize)) else none)
        (index (!copy)) m).Ends (index (!copy))
      (fun envValid m' => envValid = index copy
        ∧ m' = program (restored cfg crc32 copy data m) (cfg.offset (!copy) + 4) [obsoleteFlag])
      (Interrupted cfg crc32 io copy m) := by
  have hdata := hl.exported data hexp
  have hnew : cfg.offset (index (!copy) == 1) = cfg.offset copy := by cases copy <;> rfl
  have hold : cfg.offset (index (!copy) != 1) = cfg.offset (!copy) := by cases copy <;> rfl
  have hnext : (if index (!copy) = 2 then 1 else 2) = index copy := by cases copy <;> rfl
  have hother {m' : Int → UInt8} (h : Outside m m' (cfg.offset copy) cfg.eraseLen)
      : readCopy cfg m' (!copy) = readCopy cfg m (!copy) := by
    apply readCopy_of_outside hwf h
    . rw [Bool.not_not]
    . rw [Bool.not_not]
  have hcompleted {m' : Int → UInt8} (herase : io.erase = .done) (hwrite : io.writeEnv = .done)
      (hcopy : readCopy cfg m' copy = envNew crc32 data)
      (hcrc : (readCopy cfg m' (!copy)).crc = (readCopy cfg m (!copy)).crc)
      (hsame : (readCopy cfg m' (!copy)).data = (readCopy cfg m (!copy)).data)
      : Interrupted cfg crc32 io copy m m' :=
    .inr ⟨data, ⟨hprobe, hexp, hsaved, herase, .inl hwrite⟩, hcopy, hcrc, hsame⟩
  have hflag (herase : io.erase = .done) (hwrite : io.writeEnv = .done)
      : (io.writeFlag.andThen (index (!copy))
          (program (restored cfg crc32 copy data m) (cfg.offset (!copy) + 4) [obsoleteFlag])
          fun m => .returned 0 (index copy) m).Ends (index (!copy))
        (fun envValid m' => envValid = index copy
          ∧ m' = program (restored cfg crc32 copy data m) (cfg.offset (!copy) + 4) [obsoleteFlag])
        (Interrupted cfg crc32 io copy m) := by
    apply Op.andThen_ends (hl.failed io.writeFlag (by simp))
    . intro left hleft
      have ⟨hself, hnew⟩ := readCopy_flag hwf (hl.writeFlag data left hexp hleft)
      rw [Bool.not_not, readCopy_restored hwf hdata] at hnew
      rw [hother (outside_restored hwf hdata)] at hself
      apply hcompleted herase hwrite hnew
      . rw [hself]
      . rw [hself]
    . intro _
      exact .inl ⟨rfl, rfl, rfl⟩
  unfold flashEnv
  rw [hnew, hold, hnext]
  apply Op.andThen_ends (hl.failed io.erase (by simp))
  . intro left hleft
    have ⟨hout, hcopy⟩ := hl.erase left hleft
    exact .inl ⟨hother hout, hcopy⟩
  intro herase
  apply Op.andThen_ends (hl.failed io.writeEnv (by simp))
  . intro left hleft
    have hsize := hwf.envSize_le
    have ⟨hout, hcopy⟩ := hl.writeEnv data left hexp hleft
    have hout' : Outside m left (cfg.offset copy) cfg.eraseLen := outside_erase.trans hout (le_refl _) (by omega)
    rcases hcopy with hcopy | hbad
    . exact .inr ⟨data, ⟨hprobe, hexp, hsaved, herase, .inr ⟨left, hleft, hcopy⟩⟩, hcopy,
        by rw [hother hout'], by rw [hother hout']⟩
    . exact .inl ⟨hother hout', .inr hbad⟩
  intro hwrite
  by_cases hlt : cfg.envSize < cfg.envSectSize
  . have hrestored : restored cfg crc32 copy data m = _ := if_pos hlt
    rw [if_pos hlt]
    apply Op.andThen_ends (hl.failed io.writeSaved (by simp))
    . intro left hleft
      have hout := hl.writeSaved data left hexp hleft
      have hout' : Outside m left (cfg.offset copy) cfg.eraseLen := by
        apply (outside_erased_written hwf hdata).trans hout
        . omega
        . rw [eraseLen_of_lt hlt]
          omega
      apply hcompleted herase hwrite
      . rw [readCopy_of_outside_saved hwf hout, readCopy_written hwf hdata]
      . rw [hother hout']
      . rw [hother hout']
    intro _
    have hflag := hflag herase hwrite
    rw [hrestored] at hflag ⊢
    exact hflag
  have hrestored : restored cfg crc32 copy data m = _ := if_neg hlt
  rw [if_neg hlt]
  have hflag := hflag herase hwrite
  rw [hrestored] at hflag ⊢
  exact hflag

lemma saveenv_ends (hl : Leaves cfg crc32 io copy m)
    : (saveenv cfg crc32 io (index (!copy)) m).Ends (index (!copy))
      (fun envValid m' => ∃ data, io.exported = .ok data ∧ envValid = index copy
        ∧ m' = program (restored cfg crc32 copy data m) (cfg.offset (!copy) + 4) [obsoleteFlag])
      (Interrupted cfg crc32 io copy m) := by
  have hkept : Interrupted cfg crc32 io copy m m := .inl ⟨rfl, .inl rfl⟩
  have hnew : cfg.offset (index (!copy) == 1) = cfg.offset copy := by cases copy <;> rfl
  unfold saveenv
  by_cases hprobe : io.probeError = true
  . rw [if_pos hprobe]
    exact .inr ⟨by decide, rfl, hkept⟩
  rw [if_neg hprobe]
  have hprobe : io.probeError = false := by simpa using hprobe
  cases hexp : io.exported with
  | error ret => exact .inr ⟨hl.exportError ret hexp, rfl, hkept⟩
  | ok data =>
    dsimp only
    by_cases hlt : cfg.envSize < cfg.envSectSize
    . rw [if_pos hlt]
      by_cases hmem : io.memalign = false
      . rw [if_pos hmem]
        exact .inr ⟨by decide, rfl, hkept⟩
      rw [if_neg hmem]
      by_cases hread : io.readRet ≠ 0
      . rw [if_pos hread]
        exact .inr ⟨hread, rfl, hkept⟩
      have hends := flashEnv_ends hwf hl hprobe hexp fun _ => ⟨by simpa using hmem, by simpa using hread⟩
      rw [if_pos hlt] at hends
      rw [if_neg hread, hnew]
      exact hends.mono fun _ _ h => ⟨data, rfl, h⟩
    have hends := flashEnv_ends hwf hl hprobe hexp fun h => absurd h hlt
    rw [if_neg hlt] at hends
    rw [if_neg hlt]
    exact hends.mono fun _ _ h => ⟨data, rfl, h⟩

end

end

structure Taken (cfg : Config) (crc32 : List UInt8 → UInt32) (m : Int → UInt8) (copy : Bool) : Prop where
  valid : crcOk crc32 (readCopy cfg m copy) = true
  active : crcOk crc32 (readCopy cfg m (!copy)) = true →
    checkFlags (readCopy cfg m false).flags (readCopy cfg m true).flags = index copy

def relocate (cfg : Config) (crc32 : List UInt8 → UInt32) (envValid : Nat) (m : Int → UInt8) : Nat × Import :=
  envRelocateSpec cfg crc32 true true 0 0 envValid m

lemma relocate_of_taken (h : Taken cfg crc32 m copy) (envValid : Nat)
    : relocate cfg crc32 envValid m = (index copy, .env (readCopy cfg m copy).data) := by
  have hvalid := h.valid
  have hactive := h.active
  unfold relocate envRelocateSpec
  cases copy with
  | false =>
    cases hother : crcOk crc32 (readCopy cfg m true) with
    | false => simp [hvalid, hother, index]
    | true => simp [hvalid, hother, hactive hother, index]
  | true =>
    cases hother : crcOk crc32 (readCopy cfg m false) with
    | false => simp [hvalid, hother, index]
    | true => simp [hvalid, hother, hactive hother, index]

lemma checkFlags_eq_index (flags1 flags2 : UInt8) : ∃ copy, checkFlags flags1 flags2 = index copy := by
  unfold checkFlags
  repeat' split
  . exact ⟨false, rfl⟩
  . exact ⟨true, rfl⟩
  . exact ⟨false, rfl⟩
  . exact ⟨false, rfl⟩
  . exact ⟨true, rfl⟩
  . exact ⟨false, rfl⟩

lemma exists_taken (hvalid : crcOk crc32 (readCopy cfg m copy) = true) : ∃ copy, Taken cfg crc32 m copy := by
  cases hother : crcOk crc32 (readCopy cfg m (!copy)) with
  | false =>
    refine ⟨copy, hvalid, ?_⟩
    rw [hother]
    intro hfalse
    contradiction
  | true =>
    have ⟨active, hflags⟩ := checkFlags_eq_index (readCopy cfg m false).flags (readCopy cfg m true).flags
    refine ⟨active, ?_, fun _ => hflags⟩
    cases copy <;> cases active <;> assumption

structure State where
  m : Int → UInt8
  ram : Option Nat
  accept : List UInt8 → Prop

/--
The environments that a reboot may import after a call of `saveenv`: the one it has saved when it returns 0,
otherwise those before and its own one if the image has been completely written.
-/
def acceptable (cfg : Config) (crc32 : List UInt8 → UInt32) (io : SaveIo) (envValid : Nat) (m : Int → UInt8)
    (accept : List UInt8 → Prop) (data : List UInt8) : Prop :=
  match saveenv cfg crc32 io envValid m with
  | .returned ret _ _ =>
    if ret = 0 then io.exported = .ok data else accept data ∨ Completed cfg crc32 io (envValid == 1) data
  | .cut _ => accept data ∨ Completed cfg crc32 io (envValid == 1) data

def State.save (cfg : Config) (crc32 : List UInt8 → UInt32) (s : State) (io : SaveIo) (envValid : Nat) : State where
  m :=
    match saveenv cfg crc32 io envValid s.m with
    | .returned _ _ m => m
    | .cut m => m
  ram :=
    match saveenv cfg crc32 io envValid s.m with
    | .returned _ envValid _ => some envValid
    | .cut _ => none
  accept := acceptable cfg crc32 io envValid s.m s.accept

inductive Run (cfg : Config) (crc32 : List UInt8 → UInt32) : State → Prop where
  | boot {m : Int → UInt8} {copy : Bool} {envValid₀ envValid : Nat} {data : List UInt8}
      (hvalid : crcOk crc32 (readCopy cfg m copy) = true)
      (hboot : relocate cfg crc32 envValid₀ m = (envValid, .env data))
      : Run cfg crc32 ⟨m, some envValid, fun d => d = data⟩
  | save {s : State} {io : SaveIo} {envValid : Nat} (h : Run cfg crc32 s) (hram : s.ram = some envValid)
      (hleaves : Leaves cfg crc32 io (envValid == 1) s.m) : Run cfg crc32 (s.save cfg crc32 io envValid)
  | reboot {s : State} {envValid₀ envValid : Nat} {data : List UInt8} (h : Run cfg crc32 s)
      (hboot : relocate cfg crc32 envValid₀ s.m = (envValid, .env data))
      : Run cfg crc32 ⟨s.m, some envValid, s.accept⟩

def Survives (cfg : Config) (crc32 : List UInt8 → UInt32) (s : State) : Prop :=
  ∀ envValid₀, ∃ envValid data, relocate cfg crc32 envValid₀ s.m = (envValid, .env data) ∧ s.accept data

structure On (cfg : Config) (crc32 : List UInt8 → UInt32) (s : State) (copy : Bool) : Prop where
  ram : ∀ envValid, s.ram = some envValid → envValid = index copy
  valid : crcOk crc32 (readCopy cfg s.m copy) = true
  accept : s.accept (readCopy cfg s.m copy).data
  other : crcOk crc32 (readCopy cfg s.m (!copy)) = true → s.accept (readCopy cfg s.m (!copy)).data
    ∨ checkFlags (readCopy cfg s.m false).flags (readCopy cfg s.m true).flags = index copy

variable {s : State}

lemma On.taken {copy' : Bool} (h : On cfg crc32 s copy) (ht : Taken cfg crc32 s.m copy')
    : s.accept (readCopy cfg s.m copy').data := by
  by_cases heq : copy' = copy
  . rw [heq]
    exact h.accept
  have hother : copy' = !copy := by
    cases copy <;> cases copy' <;> simp_all
  subst hother
  have hactive := ht.active
  rw [Bool.not_not] at hactive
  rcases h.other ht.valid with haccept | hflags
  . exact haccept
  . rw [hactive h.valid] at hflags
    cases copy <;> contradiction

lemma On.survives (h : On cfg crc32 s copy) : Survives cfg crc32 s := by
  intro envValid₀
  have ⟨copy', ht⟩ := exists_taken h.valid
  exact ⟨_, _, relocate_of_taken ht envValid₀, h.taken ht⟩

section

variable {s : State} {io : SaveIo} {copy : Bool} {m' : Int → UInt8}

lemma On.interrupted {ram : Option Nat} (h : On cfg crc32 s (!copy))
    (hi : Interrupted cfg crc32 io copy s.m m') (hram : ∀ envValid, ram = some envValid → envValid = index (!copy))
    (haccept : ∀ data, s.accept data ∨ Completed cfg crc32 io copy data → accept data)
    : On cfg crc32 ⟨m', ram, accept⟩ (!copy) := by
  have hvalid := h.valid
  have hother := h.other
  rw [Bool.not_not] at hother
  rcases hi with ⟨hold, hnew⟩ | ⟨data, hcompleted, hnew, hcrc, hdata⟩
  . refine ⟨hram, ?_, ?_, ?_⟩
    . dsimp only
      rw [hold]
      exact hvalid
    . dsimp only
      rw [hold]
      exact haccept _ (.inl h.accept)
    . dsimp only
      rw [Bool.not_not]
      intro hok
      rcases hnew with hnew | hbad
      . rw [hnew] at hok
        rcases hother hok with hacc | hflags
        . rw [hnew]
          exact .inl (haccept _ (.inl hacc))
        right
        have hboth : ∀ c, readCopy cfg m' c = readCopy cfg s.m c := by
          intro c
          cases c <;> cases copy <;> assumption
        rw [hboth, hboth]
        exact hflags
      . rw [hbad] at hok
        contradiction
  refine ⟨hram, ?_, ?_, ?_⟩
  . dsimp only
    unfold crcOk at hvalid ⊢
    rw [hcrc, hdata]
    exact hvalid
  . dsimp only
    rw [hdata]
    exact haccept _ (.inl h.accept)
  rw [Bool.not_not, hnew]
  intro _
  exact .inl (haccept data (.inr hcompleted))

lemma on_saved (hwf : cfg.WF)
    (hdata : data.length + envHeaderSize = cfg.envSize) (haccept : accept data)
    : On cfg crc32 ⟨program (restored cfg crc32 copy data m) (cfg.offset (!copy) + 4) [obsoleteFlag],
        some (index copy), accept⟩ copy := by
  have hout : Outside (restored cfg crc32 copy data m)
      (program (restored cfg crc32 copy data m) (cfg.offset (!copy) + 4) [obsoleteFlag])
      (cfg.offset (!copy) + 4) 1 := outside_program
  have ⟨hold, hnew⟩ := readCopy_flag hwf hout
  rw [Bool.not_not, readCopy_restored hwf hdata] at hnew
  have hflag : program (restored cfg crc32 copy data m) (cfg.offset (!copy) + 4) [obsoleteFlag]
      (cfg.offset (!copy) + 4) = obsoleteFlag := by
    unfold program
    simp [obsoleteFlag]
  rw [hflag] at hold
  refine ⟨?_, ?_, ?_, ?_⟩
  . intro envValid h
    cases h
    rfl
  . dsimp only
    rw [hnew]
    exact crcOk_envNew data
  . dsimp only
    rw [hnew]
    exact haccept
  intro _
  right
  cases copy with
  | false =>
    rw [Bool.not_false] at hold hnew
    rw [Bool.not_false, hnew, hold]
    rfl
  | true =>
    rw [Bool.not_true] at hold hnew
    rw [Bool.not_true, hnew, hold]
    rfl

lemma On.save (hwf : cfg.WF) (h : On cfg crc32 s (!copy)) (hvalid : envValid = index (!copy))
    (hleaves : Leaves cfg crc32 io copy s.m) : ∃ copy, On cfg crc32 (s.save cfg crc32 io envValid) copy := by
  subst hvalid
  have hcopy : (index (!copy) == 1) = copy := by cases copy <;> rfl
  have hends := saveenv_ends hwf hleaves
  unfold State.save
  cases hsave : saveenv cfg crc32 io (index (!copy)) s.m with
  | returned ret envValid m' =>
    rw [hsave] at hends
    rcases hends with ⟨hret, data, hexp, hev, hm'⟩ | ⟨hret, hev, hi⟩
    . refine ⟨copy, ?_⟩
      subst hev hm'
      apply on_saved hwf (hleaves.exported data hexp)
      unfold acceptable
      rw [hsave]
      dsimp only
      rw [if_pos hret]
      exact hexp
    refine ⟨!copy, ?_⟩
    apply h.interrupted hi
    . intro ev hram
      cases hram
      exact hev
    intro data hdata
    unfold acceptable
    rw [hsave]
    dsimp only
    rw [if_neg hret, hcopy]
    exact hdata
  | cut m' =>
    rw [hsave] at hends
    refine ⟨!copy, ?_⟩
    apply h.interrupted hends
    . intro ev hram
      contradiction
    intro data hdata
    unfold acceptable
    rw [hsave]
    rw [hcopy]
    exact hdata

end

lemma on_of_taken (h : Taken cfg crc32 m copy)
    (haccept : accept (readCopy cfg m copy).data) : On cfg crc32 ⟨m, some (index copy), accept⟩ copy := by
  refine ⟨?_, h.valid, haccept, fun hother => .inr (h.active hother)⟩
  intro envValid hram
  cases hram
  rfl

lemma Run.on (hwf : cfg.WF) (h : Run cfg crc32 s) : ∃ copy, On cfg crc32 s copy := by
  induction h with
  | boot hvalid hboot =>
    have ⟨copy, ht⟩ := exists_taken hvalid
    rw [relocate_of_taken ht] at hboot
    cases hboot
    exact ⟨copy, on_of_taken ht rfl⟩
  | save _ hram hleaves ih =>
    have ⟨copy, hon⟩ := ih
    have hvalid := hon.ram _ hram
    have hother : (index copy == 1) = !copy := by cases copy <;> rfl
    rw [hvalid, hother] at hleaves
    rw [hvalid]
    rw [← Bool.not_not copy] at hon ⊢
    exact hon.save hwf rfl hleaves
  | reboot _ hboot ih =>
    have ⟨copy, hon⟩ := ih
    have ⟨copy', ht⟩ := exists_taken hon.valid
    rw [relocate_of_taken ht] at hboot
    cases hboot
    exact ⟨copy', on_of_taken ht (hon.taken ht)⟩

lemma restored_tail (hsize : cfg.envSize ≤ cfg.envSectSize ∨ cfg.envSectSize ∣ cfg.envSize)
    (hdata : data.length + envHeaderSize = cfg.envSize)
    (hx : (cfg.offset copy : Int) + cfg.envSize ≤ x) (hx' : x < cfg.offset copy + cfg.eraseLen)
    : restored cfg crc32 copy data m x = m x := by
  by_cases hlt : cfg.envSize < cfg.envSectSize
  . have hlen := eraseLen_of_lt hlt
    have hbehind : ¬((cfg.offset copy : Int) ≤ x ∧ x < cfg.offset copy + (envNew crc32 data).bytes.length) := by
      rw [length_envNew hdata]
      omega
    have herased : written cfg crc32 copy data m x = 0xff :=
      (program_of_not_mem _ hbehind).trans (if_pos ⟨by omega, hx'⟩)
    unfold restored program
    rw [if_pos hlt, length_load, if_pos (by omega), herased, ff_and, load_getD _ _ (by omega)]
    congr 1
    omega
  have hdvd : cfg.envSectSize ∣ cfg.envSize := by
    rcases hsize with hle | hdvd
    . have heq : cfg.envSize = cfg.envSectSize := by omega
      exact ⟨1, by omega⟩
    . exact hdvd
  have hlen : cfg.eraseLen = cfg.envSize := by
    unfold Config.eraseLen Config.sector
    rw [mod_eq_zero_of_dvd hdvd]
    split
    . exact Nat.div_mul_cancel hdvd
    . omega
  omega

lemma saveenv_tail (hwf : cfg.WF) (hsize : cfg.envSize ≤ cfg.envSectSize ∨ cfg.envSectSize ∣ cfg.envSize)
    {io : SaveIo} (hleaves : Leaves cfg crc32 io copy m)
    (hsave : saveenv cfg crc32 io (index (!copy)) m = .returned 0 envValid m')
    (hx : (cfg.offset copy : Int) + cfg.envSize ≤ x) (hx' : x < cfg.offset copy + cfg.eraseLen)
    : m' x = m x := by
  have hends := saveenv_ends hwf hleaves
  rw [hsave] at hends
  rcases hends with ⟨_, data, hexp, _, hm'⟩ | ⟨hret, _⟩
  . have hheader : 5 ≤ cfg.envSize := hwf.header
    have hapart := hwf.apart copy x (by omega)
    rw [hm', program_of_not_mem, restored_tail hsize (hleaves.exported data hexp) hx hx']
    rw [List.length_singleton]
    omega
  . contradiction

def TailUnchanged (cfg : Config) (copy : Bool) (m m' : Int → UInt8) : Prop :=
  ∀ x, (cfg.offset copy : Int) + cfg.envSize ≤ x → x < cfg.offset copy + cfg.eraseLen → m' x = m x

theorem run_env_not_lost (cfg : Config) (crc32 : List UInt8 → UInt32) (hwf : cfg.WF) (s : State) (h : Run cfg crc32 s)
    : Survives cfg crc32 s
      ∧ (cfg.envSize ≤ cfg.envSectSize ∨ cfg.envSectSize ∣ cfg.envSize →
        ∀ io envValid envValid' m', s.ram = some envValid → Leaves cfg crc32 io (envValid == 1) s.m →
          saveenv cfg crc32 io envValid s.m = .returned 0 envValid' m' → TailUnchanged cfg (envValid == 1) s.m m') := by
  have ⟨copy, hon⟩ := h.on hwf
  refine ⟨hon.survives, ?_⟩
  intro hsize io envValid envValid' m' hram hleaves hsave x hx hx'
  have hother : (index copy == 1) = !copy := by cases copy <;> rfl
  have hindex : index (!!copy) = index copy := by rw [Bool.not_not]
  rw [hon.ram envValid hram, hother] at hleaves hx hx'
  rw [hon.ram envValid hram, ← hindex] at hsave
  exact saveenv_tail hwf hsize hleaves hsave hx hx'

variable {cfg : Config}

namespace Sample

def wide : Config where
  envOffset := 0
  envOffsetRedund := 32
  envSize := 24
  envSectSize := 16

def embedded : Config := { wide with envSize := 8 }

def crc : List UInt8 → UInt32 := fun _ => 0

def zeros : Int → UInt8 := fun _ => 0

def save (n : Nat) : SaveIo where
  probeError := false
  exported := .ok (List.replicate n 7)
  memalign := true
  readRet := 0
  erase := .done
  writeEnv := .done
  writeSaved := .done
  writeFlag := .done

lemma wf_of_offset (hsize : 5 ≤ cfg.envSize) (hsect : 0 < cfg.envSectSize)
    (hoff : cfg.envOffset + cfg.eraseLen ≤ cfg.envOffsetRedund) : cfg.WF := by
  refine ⟨hsize, hsect, ?_⟩
  have hfirst : cfg.offset false = cfg.envOffset := rfl
  have hsecond : cfg.offset true = cfg.envOffsetRedund := rfl
  intro copy x
  cases copy with
  | false =>
    rw [Bool.not_false, hfirst, hsecond]
    omega
  | true =>
    rw [Bool.not_true, hfirst, hsecond]
    omega

lemma not_leftBehind_done {left : Int → UInt8} : ¬Op.LeftBehind .done left := by
  rintro (⟨ret, h⟩ | h)
  . contradiction
  . contradiction

lemma save_leaves (hn : n + envHeaderSize = cfg.envSize)
    (herased : crcOk crc (readCopy cfg (erased cfg true zeros) true) = false)
    : Leaves cfg crc (save n) true zeros where
  exportError := by
    intro ret h
    contradiction
  exported := by
    intro data h
    cases h
    rw [List.length_replicate, hn]
  failed := by
    intro op hop ret left h
    have hdone : op = .done := by simpa [save] using hop
    rw [hdone] at h
    contradiction
  erased := herased
  erase := fun _ h => absurd h not_leftBehind_done
  writeEnv := fun _ _ _ h => absurd h not_leftBehind_done
  writeSaved := fun _ _ _ h => absurd h not_leftBehind_done
  writeFlag := fun _ _ _ h => absurd h not_leftBehind_done

def booted (n : Nat) : State := ⟨zeros, some 1, fun data => data = List.replicate n 0⟩

lemma boot (hvalid : crcOk crc (readCopy cfg zeros false) = true)
    (hboot : relocate cfg crc 1 zeros = (1, .env (List.replicate n 0))) : Run cfg crc (booted n) :=
  .boot hvalid hboot

end Sample

open Sample

theorem run_env_not_lost_embedded
    : Survives Sample.embedded Sample.crc (Sample.booted 3)
      ∧ ∃ m', saveenv Sample.embedded Sample.crc (Sample.save 3) 1 Sample.zeros = .returned 0 2 m'
        ∧ TailUnchanged Sample.embedded true Sample.zeros m' := by
  have hwf : embedded.WF := wf_of_offset (by decide) (by decide) (by decide)
  have hrun : Run embedded crc (booted 3) := boot rfl (by decide +kernel)
  have hleaves : Leaves embedded crc (save 3) true zeros := save_leaves rfl (by decide +kernel)
  have ⟨hsurvives, htail⟩ := run_env_not_lost embedded crc hwf (booted 3) hrun
  exact ⟨hsurvives, _, rfl, htail (.inl (by decide)) (save 3) 1 2 _ rfl hleaves rfl⟩

-- The second half of the last sector is erased and not written again.
theorem not_tailUnchanged_wide
    : Sample.wide.WF ∧ Run Sample.wide Sample.crc (Sample.booted 19)
      ∧ Leaves Sample.wide Sample.crc (Sample.save 19) true Sample.zeros
      ∧ ∃ m', saveenv Sample.wide Sample.crc (Sample.save 19) 1 Sample.zeros = .returned 0 2 m'
        ∧ ¬TailUnchanged Sample.wide true Sample.zeros m' := by
  refine ⟨wf_of_offset (by decide) (by decide) (by decide), boot rfl (by decide +kernel),
    save_leaves rfl (by decide +kernel), _, rfl, ?_⟩
  intro h
  have hlast := h 56 (by decide) (by decide)
  revert hlast
  decide +kernel

end UBoot.EnvSf
