import MarvellBoot.UBoot.PartEfi.Impl

namespace UBoot.PartEfi

open List UInt64 Option

def Rejected (lastUsableLba : UInt64) : (offset : UInt64) → List DiskPartition → Prop
  | _, [] => False
  | offset, p :: ps =>
    let start := if p.start ≠ 0 then p.start else offset
    (p.start ≠ 0 ∧ p.start < offset) ∨ start + p.size > lastUsableLba + 1 ∨ p.uuid = none
      ∨ Rejected lastUsableLba (start + p.size) ps

def Laid (last : Nat) : (offset : Nat) → List DiskPartition → Prop
  | _, [] => True
  | offset, p :: ps =>
    let start := if p.start ≠ 0 then p.start.toNat else offset
    offset ≤ start
      ∧ (0 < p.size.toNat ∧ start + p.size.toNat ≤ last + 1 ∨ ps = [] ∧ p.size.toNat = 0 ∧ start ≤ last)
      ∧ Laid last (start + p.size.toNat) ps

structure Sound (firstUsableLba lastUsableLba : UInt64) (entries : List GptEntry) : Prop where
  usable : ∀ e ∈ entries, firstUsableLba ≤ e.startingLba ∧ e.startingLba ≤ e.endingLba ∧ e.endingLba ≤ lastUsableLba
  sorted : entries.Pairwise fun e e' => e.endingLba < e'.startingLba

def SoundFrom (last : UInt64) : (lower : Nat) → List GptEntry → Prop
  | _, [] => True
  | lower, e :: es =>
    lower ≤ e.startingLba.toNat ∧ e.startingLba ≤ e.endingLba ∧ e.endingLba ≤ last
      ∧ SoundFrom last (e.endingLba.toNat + 1) es

variable {entries : List GptEntry}

lemma SoundFrom.lower {last : UInt64} {lower : Nat} (h : SoundFrom last lower entries)
    : ∀ e ∈ entries, lower ≤ e.startingLba.toNat := by
  induction entries generalizing lower with
  | nil =>
    intro e he
    contradiction
  | cons e es ih =>
    have ⟨hlower, hle, _, hrest⟩ := h
    rw [le_iff_toNat_le] at hle
    intro e' he'
    cases he' with
    | head => exact hlower
    | tail _ hmem =>
      have := ih hrest e' hmem
      omega

lemma sound_iff (first last : UInt64) (entries : List GptEntry)
    : Sound first last entries ↔ SoundFrom last first.toNat entries := by
  induction entries generalizing first with
  | nil =>
    constructor
    . intro _
      trivial
    . intro _
      exact ⟨by simp, .nil⟩
  | cons e es ih =>
    constructor
    . intro ⟨husable, hsorted⟩
      rw [pairwise_cons] at hsorted
      have ⟨hfirst, hle, hlast⟩ := husable e mem_cons_self
      refine ⟨hfirst, hle, hlast, ?_⟩
      cases es with
      | nil => trivial
      | cons e' es =>
        have hlt := hsorted.1 e' mem_cons_self
        have hrest : Sound (e.endingLba + 1) last (e' :: es) := by
          refine ⟨?_, hsorted.2⟩
          intro x hx
          have hlt' := hsorted.1 x hx
          refine ⟨?_, (husable x (mem_cons_of_mem _ hx)).2⟩
          rw [lt_iff_toNat_lt] at hlt'
          rw [UInt64.le_iff_toNat_le, UInt64.toNat_add, UInt64.toNat_one]
          omega
        have hadd : (e.endingLba + 1).toNat = e.endingLba.toNat + 1 := by
          have := e'.startingLba.toNat_lt
          rw [lt_iff_toNat_lt] at hlt
          rw [UInt64.toNat_add, UInt64.toNat_one]
          omega
        rw [← hadd]
        exact (ih _).mp hrest
    intro ⟨hfirst, hle, hlast, hrest⟩
    have hlower := hrest.lower
    cases es with
    | nil =>
      refine ⟨?_, pairwise_singleton _ _⟩
      intro x hx
      rw [mem_singleton] at hx
      rw [hx]
      exact ⟨hfirst, hle, hlast⟩
    | cons e' es =>
      have hadd : (e.endingLba + 1).toNat = e.endingLba.toNat + 1 := by
        have := hlower e' mem_cons_self
        have := e'.startingLba.toNat_lt
        rw [UInt64.toNat_add, UInt64.toNat_one]
        omega
      rw [← hadd] at hrest
      have ⟨husable, hsorted⟩ := (ih _).mpr hrest
      rw [le_iff_toNat_le] at hle
      constructor
      . intro x hx
        cases hx with
        | head => exact ⟨hfirst, le_iff_toNat_le.mpr hle, hlast⟩
        | tail _ hmem =>
          refine ⟨?_, (husable x hmem).2⟩
          have := hlower x hmem
          rw [le_iff_toNat_le]
          omega
      rw [pairwise_cons]
      refine ⟨?_, hsorted⟩
      intro x hmem
      have := hlower x hmem
      rw [lt_iff_toNat_lt]
      omega

section

variable {last offset : UInt64} {p : DiskPartition} {ps : List DiskPartition}

lemma gptFillPte_eq_none_iff : gptFillPte last offset ps = none ↔ Rejected last offset ps := by
  induction ps generalizing offset with
  | nil => simp [gptFillPte, Rejected]
  | cons p ps ih =>
    rw [gptFillPte, Rejected]
    by_cases hbegin : p.start ≠ 0 ∧ p.start < offset
    . rw [if_pos hbegin]
      simp [hbegin]
    rw [if_neg hbegin]
    generalize (if p.start ≠ 0 then p.start else offset) = start
    by_cases hend : start + p.size > last + 1
    . rw [if_pos hend]
      simp only [true_iff]
      exact .inr (.inl hend)
    rw [if_neg hend]
    simp only [hbegin, hend, false_or]
    cases p.uuid with
    | none => simp
    | some uuid =>
      rw [map_eq_none_iff, ih]
      simp

lemma gptFillPte_cons (h : gptFillPte last offset (p :: ps) = some entries)
    : (p.start ≠ 0 → offset ≤ p.start)
      ∧ ∃ e es, entries = e :: es ∧ e.startingLba = (if p.start ≠ 0 then p.start else offset)
        ∧ e.endingLba = (if ps.isEmpty && p.size == 0 then last
          else (if p.start ≠ 0 then p.start else offset) + p.size - 1)
        ∧ gptFillPte last ((if p.start ≠ 0 then p.start else offset) + p.size) ps = some es := by
  rw [gptFillPte] at h
  dsimp only at h
  generalize (if p.start ≠ 0 then p.start else offset) = start at h ⊢
  split at h
  . contradiction
  next hbegin =>
  split at h
  . contradiction
  split at h
  . contradiction
  rw [map_eq_some_iff] at h
  have ⟨es, hes, heq⟩ := h
  refine ⟨?_, _, es, heq.symm, rfl, rfl, hes⟩
  intro hne
  rw [← UInt64.not_lt]
  intro hlt
  exact hbegin ⟨hne, hlt⟩

lemma soundFrom_iff_laid {n : Nat} (h : gptFillPte last offset ps = some entries)
    (hn : 0 < n) (hoffset : offset.toNat = n ∨ n = 2 ^ 64)
    : SoundFrom last n entries ↔ Laid last.toNat n ps := by
  induction ps generalizing offset n entries with
  | nil =>
    cases h
    exact Iff.rfl
  | cons p ps ih =>
    have ⟨hbegin, e, es, hentries, hstart, hend, hrest⟩ := gptFillPte_cons h
    have hlast := last.toNat_lt
    rw [hentries, SoundFrom, Laid]
    rcases hoffset with hoffset | hfull
    . -- the block at which the partition begins
      have hbegin' : n ≤ e.startingLba.toNat ∧ (if p.start ≠ 0 then p.start.toNat else n) = e.startingLba.toNat := by
        rw [hstart]
        split
        next hne =>
          have := hbegin hne
          rw [le_iff_toNat_le] at this
          exact ⟨by omega, rfl⟩
        next => exact ⟨by omega, hoffset.symm⟩
      have ⟨hge, heq⟩ := hbegin'
      rw [← hstart] at hend hrest
      rw [heq, le_iff_toNat_le, le_iff_toNat_le]
      have hsize := p.size.toNat_lt
      have hslt := e.startingLba.toNat_lt
      by_cases hzero : p.size.toNat = 0
      . have hzero' : p.size = 0 := UInt64.toNat_inj.mp hzero
        cases ps with
        | nil =>
          rw [hzero', isEmpty_nil] at hend
          have hend' : e.endingLba = last := hend
          cases hrest
          rw [hend']
          constructor
          . intro ⟨_, hle, _⟩
            exact ⟨hge, .inr ⟨rfl, hzero, hle⟩, trivial⟩
          . intro ⟨_, hcases, _⟩
            exact ⟨hge, by omega, le_rfl, trivial⟩
        | cons q ps =>
          have hend' : e.endingLba.toNat = e.startingLba.toNat - 1 := by
            rw [hend]
            simp only [isEmpty_cons, Bool.false_and, Bool.false_eq_true, if_false]
            rw [UInt64.toNat_sub, UInt64.toNat_add, UInt64.toNat_one, hzero]
            omega
          constructor
          . intro ⟨_, hle, _⟩
            omega
          intro ⟨_, hcases, _⟩
          rcases hcases with hpos | hnil
          . omega
          . have := hnil.1
            contradiction
      have hzero' : (p.size == 0) = false := by
        rw [beq_eq_false_iff_ne]
        intro h0
        rw [h0] at hzero
        exact hzero rfl
      rw [hzero', Bool.and_false] at hend
      have hend' : e.endingLba.toNat = (2 ^ 64 - 1 + (e.startingLba.toNat + p.size.toNat) % 2 ^ 64) % 2 ^ 64 := by
        rw [hend]
        simp only [Bool.false_eq_true, if_false]
        rw [UInt64.toNat_sub, UInt64.toNat_add, UInt64.toNat_one]
      by_cases hover : 2 ^ 64 < e.startingLba.toNat + p.size.toNat
      . constructor
        . intro ⟨_, hle, _⟩
          omega
        . intro ⟨_, hcases, _⟩
          omega
      have hend1 : e.endingLba.toNat + 1 = e.startingLba.toNat + p.size.toNat := by omega
      have hnext : (e.startingLba + p.size).toNat = e.startingLba.toNat + p.size.toNat
          ∨ e.startingLba.toNat + p.size.toNat = 2 ^ 64 := by
        rw [UInt64.toNat_add]
        omega
      rw [hend1, ih hrest (by omega) hnext]
      constructor
      . intro ⟨_, _, hle, hlaid⟩
        exact ⟨hge, .inl ⟨by omega, by omega⟩, hlaid⟩
      . intro ⟨_, hcases, hlaid⟩
        exact ⟨hge, by omega, by omega, hlaid⟩
    . -- the blocks before reach to the end, there is no room for this one
      have := e.startingLba.toNat_lt
      have := p.start.toNat_lt
      constructor
      . intro ⟨hge, _⟩
        omega
      intro ⟨hge, hcases, _⟩
      split at hge
      . omega
      next hstart' =>
      rw [if_neg hstart'] at hcases
      omega

end

theorem gptFillPte_sound_iff (dev : BlkDesc) (diskGuid : Guid) (partitions : List DiskPartition)
    : (∀ entries, gptFillPte (gptFillHeader dev diskGuid).lastUsableLba (gptFillHeader dev diskGuid).firstUsableLba
          partitions = some entries →
        Sound (gptFillHeader dev diskGuid).firstUsableLba (gptFillHeader dev diskGuid).lastUsableLba entries)
      ↔ Rejected (gptFillHeader dev diskGuid).lastUsableLba (gptFillHeader dev diskGuid).firstUsableLba partitions
        ∨ Laid (gptFillHeader dev diskGuid).lastUsableLba.toNat (gptFillHeader dev diskGuid).firstUsableLba.toNat
          partitions := by
  have hfirst : 0 < (gptFillHeader dev diskGuid).firstUsableLba.toNat := by
    change 0 < 34
    decide
  cases hfill : gptFillPte (gptFillHeader dev diskGuid).lastUsableLba (gptFillHeader dev diskGuid).firstUsableLba
      partitions with
  | none =>
    rw [gptFillPte_eq_none_iff] at hfill
    simp [hfill]
  | some entries =>
    have haccepted : ¬Rejected (gptFillHeader dev diskGuid).lastUsableLba
        (gptFillHeader dev diskGuid).firstUsableLba partitions := by
      rw [← gptFillPte_eq_none_iff, hfill]
      simp
    have hiff := soundFrom_iff_laid hfill hfirst (.inl rfl)
    simp only [some.injEq, forall_eq', haccepted, false_or]
    rw [sound_iff, hiff]

namespace Sample

def smallDev : BlkDesc where
  lba := 1000
  blksz := 512
  le_blksz := Nat.le.refl
  size_lt := by decide

def zeroGuid : Guid := Vector.replicate 16 0

def sized (size : UInt64) : DiskPartition where
  start := 0
  size
  name := Vector.replicate 32 0
  bootable := false
  uuid := some zeroGuid

end Sample

open Sample

-- An empty partition before another one.
theorem not_sound_empty
    : ¬∀ (dev : BlkDesc) (diskGuid : Guid) (partitions : List DiskPartition) (entries : List GptEntry),
      gptFillPte (gptFillHeader dev diskGuid).lastUsableLba (gptFillHeader dev diskGuid).firstUsableLba
        partitions = some entries →
      Sound (gptFillHeader dev diskGuid).firstUsableLba (gptFillHeader dev diskGuid).lastUsableLba entries := by
  intro h
  have hfill : ((gptFillPte (gptFillHeader smallDev zeroGuid).lastUsableLba
      (gptFillHeader smallDev zeroGuid).firstUsableLba [sized 0, sized 8]).map
        fun entries => entries.map fun e => (e.startingLba, e.endingLba)) = some [(34, 33), (34, 41)] := by
    decide +kernel
  rw [map_eq_some_iff] at hfill
  have ⟨entries, hentries, hblocks⟩ := hfill
  have hsound := h _ _ _ _ hentries
  cases entries with
  | nil => contradiction
  | cons e es =>
    rw [map_cons, cons.injEq, Prod.mk.injEq] at hblocks
    have hle := (hsound.usable e mem_cons_self).2.1
    rw [hblocks.1.1, hblocks.1.2] at hle
    revert hle
    decide

end UBoot.PartEfi
