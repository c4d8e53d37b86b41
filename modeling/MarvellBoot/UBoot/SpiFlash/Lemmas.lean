import MarvellBoot.UBoot.SpiFlash.Impl

namespace UBoot.SpiFlash

open Mem List

variable {σ : Type}

structure Behaves (flash : SpiFlash σ) : Prop where
  read : ∀ {s s' offset len data}, flash.read s offset len = (some data, s') →
    offset + len ≤ flash.size ∧ data = load (flash.contents s) offset len ∧ flash.contents s' = flash.contents s
  erase : ∀ {s s' offset len}, flash.erase s offset len = (true, s') →
    flash.eraseSize ∣ offset ∧ flash.eraseSize ∣ len ∧ offset + len ≤ flash.size
      ∧ flash.contents s' = Flash.erase (flash.contents s) offset len
  write : ∀ {s s' offset data}, flash.write s offset data = (true, s') →
    offset + data.length ≤ flash.size ∧ flash.contents s' = Flash.program (flash.contents s) offset data

variable {flash : SpiFlash σ} {s s' : σ} {offset len skipped skipped' : Nat} {buf : List UInt8}

lemma store_rest (m : Int → UInt8) (a : Int) (n : Nat) (data : List UInt8)
    : store m a (data ++ (load m a n).drop data.length) = store m a data := by
  rw [drop_load, store_append]
  have hload : load m (a + data.length) (n - data.length) = load (store m a data) (a + data.length) (n - data.length) :=
    (load_store_above m _ (le_refl _)).symm
  rw [hload, store_load_self]

lemma spiFlashUpdateBlock_stores (hb : flash.Behaves) (hlen : len ≤ buf.length) (hsector : len ≤ flash.sectorSize)
    (h : spiFlashUpdateBlock flash s offset len buf skipped = (none, skipped', s'))
    : flash.contents s' = store (flash.contents s) offset (buf.take len) := by
  have htake : (buf.take len).length = len := by
    rw [length_take, min_eq_left hlen]
  unfold spiFlashUpdateBlock at h
  split at h
  . cases h
  next cmpBuf s1 hread =>
  have ⟨_, hcmp, hs1⟩ := hb.read hread
  split at h
  . next hsame =>
    cases h
    rw [hcmp, take_load _ _ hsector] at hsame
    rw [← hsame, store_load_self, hs1]
  split at h
  . cases h
  next s2 herase =>
  have ⟨_, _, _, hs2⟩ := hb.erase herase
  dsimp only at h
  split at h
  . cases h
  next s3 hwrite =>
  cases h
  have ⟨_, hs3⟩ := hb.write hwrite
  rw [hs3, hs2, hs1]
  split
  . have hwhole : (buf.take len ++ cmpBuf.drop len).length = flash.sectorSize := by
      rw [length_append, htake, length_drop, hcmp, length_load]
      omega
    rw [take_of_length_le (by omega), Flash.program_erase hwhole, hcmp]
    have hrest := store_rest (flash.contents s) offset flash.sectorSize (buf.take len)
    rw [htake] at hrest
    exact hrest
  . next hfull =>
    have hfull : len = flash.sectorSize := not_not.mp hfull
    rw [← hfull, Flash.program_erase htake]

structure Updated (flash : SpiFlash σ) (m : Int → UInt8) (offset : Nat) (buf : List UInt8) (u : Update σ) : Prop where
  todo : ∃ done, buf = done ++ u.buf ∧ (u.errOper = none →
    (u.buf ≠ [] → u.offset = offset + done.length) ∧ flash.contents u.s = store m offset done)

lemma updateBody_again {m : Int → UInt8} {u u' : Update σ} (hb : flash.Behaves)
    (hfits : offset + buf.length ≤ flash.size) (hu : Updated flash m offset buf u)
    (h : updateBody flash u = .again u') : Updated flash m offset buf u' := by
  have ⟨done, hbuf, hdone⟩ := hu.todo
  unfold updateBody at h
  split at h
  . next hgo =>
    have ⟨hoffset, hcontents⟩ := hdone hgo.2
    have hoffset := hoffset hgo.1
    generalize htodo : min u.buf.length flash.sectorSize = todo at h
    have hle : todo ≤ u.buf.length := by omega
    rcases hblock : spiFlashUpdateBlock flash u.s u.offset todo u.buf u.skipped with ⟨errOper, skipped, s⟩
    dsimp only at h
    rw [hblock] at h
    cases h
    refine ⟨done ++ u.buf.take todo, ?_, ?_⟩
    . rw [append_assoc, take_append_drop, hbuf]
    intro herr
    dsimp only at herr
    rw [herr] at hblock
    have hstore := spiFlashUpdateBlock_stores hb hle (by omega) hblock
    have hlen : (done ++ u.buf.take todo).length = done.length + todo := by
      rw [length_append, length_take, min_eq_left hle]
    constructor
    . intro hne
      have hsize := flash.size_lt
      rw [hbuf, length_append] at hfits
      dsimp only
      omega
    . dsimp only
      rw [hstore, hcontents, hoffset, store_append]
      rfl
  . cases h

lemma updateBody_measure {u u' : Update σ} (hpos : 0 < flash.sectorSize) (h : updateBody flash u = .again u')
    : u'.buf.length < u.buf.length := by
  unfold updateBody at h
  split at h
  . next hgo =>
    have := length_pos_iff.mpr hgo.1
    cases h
    rw [length_drop]
    omega
  . cases h

lemma spiFlashUpdate_isSome (hpos : 0 < flash.sectorSize) (memalign : Bool) (s : σ) (offset : Nat)
    (buf : List UInt8) : ∃ fuel, (spiFlashUpdate flash memalign s offset buf fuel).isSome = true := by
  have ⟨u, ⟨fuel, hrun⟩, _⟩ : ∃ u, Loop.Returns (updateBody flash) ⟨s, offset, buf, 0, none⟩ u ∧ True :=
    Loop.exists_returns_of_measure (I := fun _ => True) (fun u => u.buf.length) trivial
      (fun _ _ _ h => ⟨trivial, updateBody_measure hpos h⟩) (fun _ _ _ _ => trivial)
  refine ⟨fuel, ?_⟩
  unfold spiFlashUpdate
  rw [hrun]
  cases memalign with
  | false => rfl
  | true => rfl

theorem spiFlashUpdate_exact (hb : flash.Behaves) (memalign : Bool) (s : σ) (hfits : offset + buf.length ≤ flash.size)
    : (0 < flash.sectorSize → ∃ fuel, (spiFlashUpdate flash memalign s offset buf fuel).isSome = true)
      ∧ ∀ fuel s', spiFlashUpdate flash memalign s offset buf fuel = some (0, s') →
        flash.contents s' = store (flash.contents s) offset buf := by
  refine ⟨fun hpos => spiFlashUpdate_isSome hpos memalign s offset buf, ?_⟩
  intro fuel s' h
  unfold spiFlashUpdate at h
  cases memalign with
  | false => cases h
  | true =>
    rw [if_pos rfl, Option.map_eq_some_iff] at h
    have ⟨u, hrun, hu⟩ := h
    have hstart : Updated flash (flash.contents s) offset buf ⟨s, offset, buf, 0, none⟩ :=
      ⟨[], rfl, fun _ => ⟨fun _ => rfl, (store_nil _ _).symm⟩⟩
    have hdone : Updated flash (flash.contents s) offset buf u ∧ (u.buf = [] ∨ u.errOper ≠ none) := by
      apply Loop.Returns.of_inv ⟨fuel, hrun⟩ (Q := fun u => Updated flash (flash.contents s) offset buf u
        ∧ (u.buf = [] ∨ u.errOper ≠ none)) hstart
      . intro u u' hu h
        exact updateBody_again hb hfits hu h
      intro u r hu h
      unfold updateBody at h
      split at h
      . cases h
      next hstop =>
      cases h
      refine ⟨hu, ?_⟩
      by_contra hgo
      exact hstop ⟨fun h => hgo (.inl h), by_contra fun h => hgo (.inr h)⟩
    have ⟨⟨done, hbuf, hcontents⟩, hend⟩ := hdone
    have herr : u.errOper = none := by
      cases herr : u.errOper with
      | none => rfl
      | some e => simp [herr] at hu
    have hnil : u.buf = [] := hend.resolve_right fun h => h herr
    rw [herr] at hu
    cases hu
    rw [(hcontents herr).2, hbuf, hnil, append_nil]

def reliable (size sectorSize eraseSize : Nat) (h : size < 2 ^ 32) : SpiFlash (Int → UInt8) where
  size
  sectorSize
  eraseSize
  size_lt := h
  contents := id
  read m offset len := (if offset + len ≤ size then some (load m offset len) else none, m)
  erase m offset len :=
    if eraseSize ∣ offset ∧ eraseSize ∣ len ∧ offset + len ≤ size then
      (true, Flash.erase m offset len)
    else
      (false, m)
  write m offset data := if offset + data.length ≤ size then (true, Flash.program m offset data) else (false, m)

lemma reliable_behaves (size sectorSize eraseSize : Nat) (h : size < 2 ^ 32)
    : (reliable size sectorSize eraseSize h).Behaves := by
  constructor
  . intro s s' offset len data hread
    dsimp only [reliable] at hread ⊢
    split at hread
    . next hle =>
      cases hread
      exact ⟨hle, rfl, rfl⟩
    . cases hread
  . intro s s' offset len herase
    dsimp only [reliable] at herase ⊢
    split at herase
    . next hok =>
      cases herase
      exact ⟨hok.1, hok.2.1, hok.2.2, rfl⟩
    . cases herase
  intro s s' offset data hwrite
  dsimp only [reliable] at hwrite ⊢
  split at hwrite
  . next hle =>
    cases hwrite
    exact ⟨hle, rfl⟩
  . cases hwrite

theorem spiFlashUpdate_exact_twoSectors
    : ∃ m, spiFlashUpdate (reliable 16 4 2 (by decide)) true (fun _ => 0) 2 [1, 2, 3, 4, 5] 3 = some (0, m)
      ∧ m = store (fun _ => 0) 2 [1, 2, 3, 4, 5] := by
  have ⟨_, hexact⟩ := spiFlashUpdate_exact (reliable_behaves 16 4 2 (by decide)) true (fun _ => 0)
    (show 2 + [1, 2, 3, 4, 5].length ≤ 16 by decide)
  have hrun : (spiFlashUpdate (reliable 16 4 2 (by decide)) true (fun _ => 0) 2 [1, 2, 3, 4, 5] 3).map Prod.fst
      = some 0 := by decide
  have ⟨⟨ret, m⟩, hsome, hret⟩ := Option.map_eq_some_iff.mp hrun
  cases hret
  exact ⟨m, hsome, hexact 3 m hsome⟩

end UBoot.SpiFlash
