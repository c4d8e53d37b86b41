import MarvellBoot.UBoot.Pci.Lemmas.Region

namespace UBoot.Pci

open List Nat State

variable {n n' : Nat} {fixed : BitVec 32} {b : Bar} {post pre : List Bar} {res : Res} {prefetch : Bool}

variable {w k : Nat} {s₁ : State w}

lemma io_response : ∀ k : Fin 17, 2 ≤ k.val →
    let r := (0xffffffff#32 &&& addrMask 32 k) ||| 1
    r ≠ 0 ∧ r &&& pciBaseAddressSpace ≠ 0 ∧ dmPciautoSetupDevice.ioSize r = BitVec.ofNat 64 (2 ^ k.val) := by
  decide +kernel

lemma io16_response : ∀ k : Fin 16, 2 ≤ k.val →
    let r := (0xffffffff#32 &&& (addrMask 16 k).setWidth 32) ||| 1
    r ≠ 0 ∧ r &&& pciBaseAddressSpace ≠ 0 ∧ dmPciautoSetupDevice.ioSize r = BitVec.ofNat 64 (2 ^ k.val)
      ∧ 1#32 &&& (addrMask 16 k).setWidth 32 = 0 := by
  decide +kernel

lemma mem32_response : ∀ k : Fin 32, 4 ≤ k.val → ∀ prefetch : Bool,
    let r := (0xffffffff#32 &&& addrMask 32 k) ||| memFlags false prefetch
    r ≠ 0 ∧ r &&& pciBaseAddressSpace = 0 ∧ r &&& pciBaseAddressMemTypeMask ≠ pciBaseAddressMemType64
      ∧ dmPciautoSetupDevice.mem32Size r = BitVec.ofNat 32 (2 ^ k.val)
      ∧ decide (r &&& pciBaseAddressMemPrefetch ≠ 0) = prefetch := by
  decide +kernel

lemma mem64_response : ∀ k : Fin 64, 4 ≤ k.val → ∀ prefetch : Bool,
    let r := (0xffffffff#32 &&& (addrMask 64 k).setWidth 32) ||| memFlags true prefetch
    let upper := (0xffffffff#32 &&& (addrMask 64 k >>> 32).setWidth 32) ||| 0
    r ≠ 0 ∧ r &&& pciBaseAddressSpace = 0 ∧ r &&& pciBaseAddressMemTypeMask = pciBaseAddressMemType64
      ∧ dmPciautoSetupDevice.mem64Size r upper = BitVec.ofNat 64 (2 ^ k.val)
      ∧ decide (r &&& pciBaseAddressMemPrefetch ≠ 0) = prefetch := by
  decide +kernel

lemma rom_response : ∀ k : Fin 32, 11 ≤ k.val →
    let r := (0xfffffffe#32 &&& (addrMask 32 k ||| 1)) ||| 0
    r ≠ 0 ∧ -(r &&& ~~~1#32) = BitVec.ofNat 32 (2 ^ k.val) := by
  decide +kernel

lemma memFlags_and_addrMask : ∀ k : Fin 64, 4 ≤ k.val → ∀ mem64 prefetch : Bool,
    (memFlags mem64 prefetch).setWidth 64 &&& addrMask 64 k = 0 ∧ memFlags mem64 prefetch &&& addrMask 32 k = 0 := by
  decide +kernel

lemma one_and_addrMask : ∀ k : Fin 32, 2 ≤ k.val → 1#32 &&& addrMask 32 k = 0 := by
  decide +kernel

lemma setWidth_ofNat (hk : k < n) : (BitVec.ofNat n (2 ^ k)).setWidth w = sizeOf w k := by
  apply BitVec.eq_of_toNat_eq
  unfold sizeOf
  rw [BitVec.toNat_setWidth, BitVec.toNat_ofNat, BitVec.toNat_ofNat]
  congr 1
  exact Nat.mod_eq_of_lt (Nat.pow_lt_pow_right (by omega) hk)

lemma getLsbD_addrMask {i : Nat} (hk : k < n) : (addrMask n k).getLsbD i = decide (k ≤ i ∧ i < n) := by
  have hone : (1#n).toNat = 1 := by
    exact Nat.mod_eq_of_lt (Nat.one_lt_two_pow (by omega))
  have htoNat : (1#n <<< k - 1#n).toNat = 2 ^ k - 1 := by
    have hpow : 2 ^ k < 2 ^ n := Nat.pow_lt_pow_right (by omega) hk
    have := Nat.two_pow_pos k
    rw [BitVec.toNat_sub, BitVec.toNat_shiftLeft, hone, one_shiftLeft, mod_eq_of_lt hpow,
      show 2 ^ n - 1 + 2 ^ k = 2 ^ k - 1 + 2 ^ n by omega, add_mod_right]
    exact mod_eq_of_lt (by omega)
  unfold addrMask
  rw [BitVec.getLsbD_not, ← BitVec.testBit_toNat, htoNat, testBit_two_pow_sub_one]
  by_cases hn : i < n
  . by_cases hki : i < k
    . simp [hn, hki]
    . simp [hn, hki]
      omega
  . simp [hn]

-- The bits of an aligned address below `2 ^ n` are those that can be written.
lemma and_addrMask {m : Nat} {x : BitVec m} (hk : k < n) (hx : 2 ^ k ∣ x.toNat) (hlt : x.toNat < 2 ^ n)
    : x &&& (addrMask n k).setWidth m = x := by
  obtain ⟨q, hq⟩ := hx
  apply BitVec.eq_of_getLsbD_eq
  intro i hi
  rw [BitVec.getLsbD_and, BitVec.getLsbD_setWidth, getLsbD_addrMask hk]
  by_cases hin : k ≤ i ∧ i < n
  . simp [hin, hi]
  . have hbit : x.getLsbD i = false := by
      rw [← BitVec.testBit_toNat]
      by_cases hki : k ≤ i
      . exact Nat.testBit_lt_two_pow (Nat.lt_of_lt_of_le hlt (Nat.pow_le_pow_right (by decide) (by omega)))
      . rw [hq, testBit_two_pow_mul]
        simp [hki]
    simp [hbit]

def Bar.decode (read : Nat → BitVec 32) (i : Nat) : Bar → Nat
  | .unused => 0
  | .io k _ => (read i &&& addrMask 32 k).toNat
  | .io16 k _ => (read i &&& (addrMask 16 k).setWidth 32).toNat
  | .mem32 k _ _ => (read i &&& addrMask 32 k).toNat
  | .mem64 k _ _ => (((read (i + 1)).setWidth 64 <<< 32 ||| (read i).setWidth 64) &&& addrMask 64 k).toNat

lemma decode32 {addr : BitVec w} (hk : k < n) (hn : n ≤ 32) (hlt : addr.toNat < 2 ^ n)
    (hdvd : 2 ^ k ∣ addr.toNat) (hfixed : fixed &&& (addrMask n k).setWidth 32 = 0)
    : (((addr.setWidth 32 &&& (addrMask n k).setWidth 32) ||| fixed) &&& (addrMask n k).setWidth 32).toNat
      = addr.toNat := by
  have htoNat : (addr.setWidth 32).toNat = addr.toNat := by
    rw [BitVec.toNat_setWidth, mod_eq_of_lt (Nat.lt_of_lt_of_le hlt (Nat.pow_le_pow_right (by decide) hn))]
  have hmask : addr.setWidth 32 &&& (addrMask n k).setWidth 32 = addr.setWidth 32 := by
    apply and_addrMask hk
    . rwa [htoNat]
    . rwa [htoNat]
  rw [BitVec.and_or_distrib_right, hfixed, hmask, hmask, BitVec.ofNat_eq_ofNat, BitVec.or_zero, htoNat]

lemma decode64 {addr : BitVec 64} (hk : k < 64) (hdvd : 2 ^ k ∣ addr.toNat)
    (hfixed : fixed.setWidth 64 &&& addrMask 64 k = 0)
    : ((((addr >>> 32).setWidth 32 &&& (addrMask 64 k >>> 32).setWidth 32) ||| 0#32).setWidth 64 <<< 32
        ||| ((addr.setWidth 32 &&& (addrMask 64 k).setWidth 32) ||| fixed).setWidth 64)
        &&& addrMask 64 k
      = addr := by
  have hself := and_addrMask hk hdvd addr.isLt
  rw [BitVec.setWidth_eq] at hself
  conv => rhs; rw [← hself]
  apply BitVec.eq_of_getLsbD_eq
  intro i hi
  have hfixed : (fixed.setWidth 64 &&& addrMask 64 k).getLsbD i = false := by
    rw [hfixed]
    exact BitVec.getLsbD_zero
  simp only [BitVec.getLsbD_and, BitVec.getLsbD_or, BitVec.getLsbD_shiftLeft, BitVec.getLsbD_setWidth,
    BitVec.getLsbD_ushiftRight] at hfixed ⊢
  by_cases hlow : i < 32
  . simp only [hi, hlow, decide_true, Bool.not_true, Bool.true_and, Bool.and_false, Bool.false_and,
      Bool.false_or] at hfixed ⊢
    revert hfixed
    generalize (addrMask 64 k).getLsbD i = mask
    generalize fixed.getLsbD i = flag
    generalize addr.getLsbD i = bit
    revert bit flag mask
    decide
  have hupper : i - 32 < 32 := by omega
  have hback : 32 + (i - 32) = i := by omega
  have hzero : fixed.getLsbD i = false := BitVec.getLsbD_of_ge _ _ (by omega)
  simp only [hi, hlow, hupper, hback, hzero, decide_true, decide_false, Bool.not_false, Bool.true_and, Bool.and_false,
    Bool.false_and, Bool.or_false, Bool.and_self, BitVec.getLsbD_zero, show i - 32 < 64 by omega]
  generalize addr.getLsbD i = bit
  generalize (addrMask 64 k).getLsbD i = mask
  revert bit mask
  decide

section

variable {dev : Device} {s s' : State w} {i j k : Nat} {region : PciRegion w} {addr : BitVec w} {bar : Option Nat}
  {res : Res} (value : BitVec 32)

def regCount (bars : List Bar) : Nat := (bars.flatMap Bar.regs).length

lemma regCount_append (pre : List Bar) (b : Bar) : regCount (pre ++ [b]) = regCount pre + b.regs.length := by
  unfold regCount
  rw [flatMap_append, length_append, flatMap_singleton]

lemma Device.reg_eq {pre post : List Bar} {b : Bar} (h : dev.bars = pre ++ b :: post) (hj : j < b.regs.length)
    : dev.reg (regCount pre + j) = b.regs.getD j ⟨0, 0⟩ := by
  unfold Device.reg regCount
  rw [h, flatMap_append, flatMap_cons, getD_append_right _ _ _ _ (by omega), Nat.add_sub_cancel_left,
    getD_append _ _ _ _ hj]

lemma readBar_writeBar_self
    : (s.writeBar i value).readBar dev i = (value &&& (dev.reg i).writable) ||| (dev.reg i).fixed := by
  unfold readBar writeBar
  dsimp only
  rw [Function.update_self]

lemma readBar_writeBar_of_ne (hne : j ≠ i) : (s.writeBar i value).readBar dev j = s.readBar dev j := by
  unfold readBar writeBar
  dsimp only
  rw [Function.update_of_ne hne]

structure Allocated (s : State w) (bar : Option Nat) (k : Nat) (addr : BitVec w) (s' : State w) : Prop where
  config : s'.config = s.config
  log : s'.log = s.log ++ [⟨bar, addr⟩]
  dvd : 2 ^ k ∣ addr.toNat
  valid : ∀ res region, s'.region res = some region → Valid region

def RegionsValid (s : State w) : Prop := ∀ res region, s.region res = some region → Valid region

lemma State.allocate_allocated (hk : k < w) (hvalid : RegionsValid s)
    (hwrap : ∀ region, s.region res = some region → NoWrap region k)
    (h : s.allocate bar res (sizeOf w k) = some (addr, s'))
    : Allocated s bar k addr s' ∧ ∃ region, s.region res = some region ∧ addr.toNat + 2 ^ k ≤ region.stop := by
  unfold allocate at h
  split at h
  . contradiction
  next region hregion =>
  split at h
  . contradiction
  next addr' region' halloc =>
  obtain ⟨rfl, rfl⟩ := h
  have hplaced := pciautoRegionAllocate_placed hk (hvalid res region hregion) (hwrap region hregion) halloc
  refine ⟨⟨rfl, rfl, hplaced.dvd, ?_⟩, region, hregion, hplaced.add_le⟩
  intro res' r hr
  dsimp only at hr
  rw [Function.update_apply] at hr
  split at hr
  . cases hr
    exact hplaced.valid (hvalid res region hregion)
  . exact hvalid res' r hr

def Room (region : PciRegion w) (k : Nat) : Prop :=
  ∃ a, position region.busLower ≤ a ∧ 2 ^ k ∣ a ∧ a + 2 ^ k ≤ region.stop

lemma Room.alignUp_add_le (h : Room region k) : alignUp (position region.busLower) (2 ^ k) + 2 ^ k ≤ region.stop := by
  obtain ⟨a, hle, hdvd, hstop⟩ := h
  exact Nat.le_trans (Nat.add_le_add_right (alignUp_le (Nat.two_pow_pos k) hle hdvd) _) hstop

lemma Room.noWrap (h : Room region k) (hvalid : Valid region) : NoWrap region k := by
  obtain ⟨a, hle, hdvd, hstop⟩ := h
  intro b hb hlt hdvd'
  left
  -- no multiple of the size between the pointer and the one after the first
  have hba : b ≤ a := by
    by_contra hgt
    obtain ⟨p, rfl⟩ := hdvd
    obtain ⟨q, rfl⟩ := hdvd'
    have : 2 ^ k * (p + 1) ≤ 2 ^ k * q := Nat.mul_le_mul_left _
      (Nat.lt_of_mul_lt_mul_left (by omega : 2 ^ k * p < 2 ^ k * q))
    rw [mul_add] at this
    omega
  have hle := hvalid.stop_le
  unfold PciRegion.stop at hstop hle
  omega

lemma State.allocate_isSome (hk : k < w) (hvalid : RegionsValid s)
    (hregion : s.region res = some region) (hroom : Room region k)
    : ∃ addr s', s.allocate bar res (sizeOf w k) = some (addr, s') := by
  have hvalid := hvalid res region hregion
  have hadd := hroom.alignUp_add_le
  have hstart := hvalid.start_le
  have hstop := hvalid.stop_le
  have hle := @le_alignUp (position region.busLower) _ (Nat.two_pow_pos k)
  have hfilled := @toNat_filled w _ _ (sizeOf w k) _ (toNat_roundUp region.busLower hk) (Nat.le_trans hstart hle)
  unfold PciRegion.stop at hadd hstop
  have halloc : (pciautoRegionAllocate region (sizeOf w k)).isSome := by
    unfold pciautoRegionAllocate
    rw [if_neg]
    . rfl
    rw [gt_iff_lt, BitVec.lt_def, hfilled, toNat_sizeOf hk]
    by_cases heq : alignUp (position region.busLower) (2 ^ k) + 2 ^ k - region.busStart.toNat < 2 ^ w
    . rw [Nat.mod_eq_of_lt heq]
      omega
    . omega
  obtain ⟨⟨addr, region'⟩, halloc⟩ := Option.isSome_iff_exists.mp halloc
  unfold allocate
  rw [hregion]
  dsimp only
  rw [halloc]
  exact ⟨_, _, rfl⟩

def Done (dev : Device) (s : State w) (n : Nat) : Prop :=
  ∀ a ∈ s.log, ∃ pre b post, dev.bars = pre ++ b :: post ∧ a.bar = some (regCount pre)
    ∧ regCount pre + b.regs.length ≤ n ∧ b ≠ .unused ∧ b.decode (s.readBar dev) (regCount pre) = a.addr.toNat

lemma Bar.decode_congr {read read' : Nat → BitVec 32} (h : ∀ j < b.regs.length, read' (i + j) = read (i + j))
    : b.decode read' i = b.decode read i := by
  cases b with
  | unused => rfl
  | io k hk | mem32 k prefetch hk => exact congrArg (fun x => (x &&& addrMask 32 k).toNat) (h 0 (zero_lt_one))
  | io16 k hk => exact congrArg (fun x => (x &&& (addrMask 16 k).setWidth 32).toNat) (h 0 (zero_lt_one))
  | mem64 k prefetch hk =>
    have h0 : read' i = read i := h 0 zero_lt_two
    have h1 : read' (i + 1) = read (i + 1) := h 1 one_lt_two
    unfold Bar.decode
    rw [h0, h1]

lemma Done.congr (h : Done dev s n) (hread : ∀ j < n, s'.readBar dev j = s.readBar dev j)
    (hlog : s'.log = s.log) (hle : n ≤ n') : Done dev s' n' := by
  intro a ha
  rw [hlog] at ha
  obtain ⟨pre, b, post, hbars, hbar, hn, hne, hdecode⟩ := h a ha
  refine ⟨pre, b, post, hbars, hbar, by omega, hne, ?_⟩
  rw [← hdecode]
  apply Bar.decode_congr
  intro j hj
  exact hread _ (by omega)

lemma Done.concat {pre post : List Bar} {b : Bar} (h : Done dev s (regCount pre))
    (hread : ∀ j < regCount pre, s'.readBar dev j = s.readBar dev j) (hbars : dev.bars = pre ++ b :: post)
    (hlog : s'.log = s.log ++ [⟨some (regCount pre), addr⟩]) (hne : b ≠ .unused)
    (hdecode : b.decode (s'.readBar dev) (regCount pre) = addr.toNat)
    : Done dev s' (regCount pre + b.regs.length) := by
  intro a ha
  rw [hlog, mem_append, mem_singleton] at ha
  rcases ha with ha | rfl
  . obtain ⟨pre', b', post', hbars', hbar, hn, hne', hdecode'⟩ := h a ha
    refine ⟨pre', b', post', hbars', hbar, by omega, hne', ?_⟩
    rw [← hdecode']
    apply Bar.decode_congr
    intro j hj
    exact hread _ (by omega)
  . exact ⟨pre, b, post, hbars, rfl, le_rfl, hne, hdecode⟩

def memRegion (s : State w) (prefetch : Bool) : Option (PciRegion w) :=
  s.region (if (s.region .prefetch).isSome && prefetch then .prefetch else .mem)

def CondBelow (n : Nat) (region : Option (PciRegion w)) (k : Nat) : Prop :=
  ∀ res, region = some res → NoWrap res k ∧ res.stop ≤ 2 ^ n

def BarCond (s : State w) : Bar → Prop
  | .unused => True
  | .io k _ => CondBelow 32 (s.region .io) k
  | .io16 k _ => CondBelow 16 (s.region .io) k
  | .mem32 k prefetch _ => CondBelow 32 (memRegion s prefetch) k
  | .mem64 k prefetch _ => k < w ∧ ∃ res, memRegion s prefetch = some res ∧ Room res k

namespace dmPciautoSetupDevice

structure Step (dev : Device) (pre : List Bar) (b : Bar) (result : State w × Nat) : Prop where
  next : result.2 = regCount pre + b.regs.length
  done : Done dev result.1 (regCount pre + b.regs.length)
  valid : RegionsValid result.1

structure Tickled (dev : Device) (s s₁ : State w) (n : Nat) : Prop where
  region : s₁.region = s.region
  log : s₁.log = s.log
  read : ∀ j < n, s₁.readBar dev j = s.readBar dev j

lemma writeBar_tickled (s : State w) (hij : i ≤ j) (value : BitVec 32) : Tickled dev s (s.writeBar j value) i :=
  ⟨rfl, rfl, fun _ h => readBar_writeBar_of_ne value (by omega)⟩

lemma Tickled.done (ht : Tickled dev s s₁ n) (h : Done dev s n) (hle : n ≤ n')
    : Done dev s₁ n' := h.congr ht.read ht.log hle

lemma assign32
    (hbars : dev.bars = pre ++ b :: post) (hk : k < n) (hn : n ≤ 32) (hw : 32 ≤ w)
    (hregs : b.regs = [⟨(addrMask n k).setWidth 32, fixed⟩])
    (hfixed : fixed &&& (addrMask n k).setWidth 32 = 0) (hne : b ≠ .unused)
    (hdecode : ∀ read i, b.decode read i = (read i &&& (addrMask n k).setWidth 32).toNat)
    (ht : Tickled dev s s₁ (regCount pre)) (hdone : Done dev s (regCount pre)) (hvalid : RegionsValid s)
    (hcond : CondBelow n (s.region res) k)
    : Step dev pre b (assign s₁ (regCount pre) res (sizeOf w k) false false) := by
  have hlen : b.regs.length = 1 := by
    rw [hregs]
    rfl
  have hreg : dev.reg (regCount pre) = ⟨(addrMask n k).setWidth 32, fixed⟩ := by
    have := @Device.reg_eq _ 0 _ _ b hbars (by omega)
    rw [hregs] at this
    exact this
  have hvalid1 : RegionsValid s₁ := by
    unfold RegionsValid
    rw [ht.region]
    exact hvalid
  unfold assign
  rw [if_neg (by decide)]
  split
  . refine ⟨?_, ht.done hdone (by omega), hvalid1⟩
    rw [hlen]
  next addr s2 halloc =>
  rw [if_neg (by decide)]
  obtain ⟨ha, region, hregion, hstop⟩ := allocate_allocated (by omega) hvalid1 (by
    intro region hregion
    rw [ht.region] at hregion
    exact (hcond region hregion).1) halloc
  rw [ht.region] at hregion
  have hlow := (hcond region hregion).2
  have htwo := Nat.two_pow_pos k
  refine ⟨?_, ?_, ?_⟩
  . rw [hlen]
  . have hread : ∀ j < regCount pre, (s2.writeBar (regCount pre) (addr.setWidth 32)).readBar dev j
      = s.readBar dev j := by
      intro j hj
      rw [readBar_writeBar_of_ne _ (by omega), ← ht.read j hj]
      unfold readBar
      rw [ha.config]
    apply hdone.concat hread hbars _ hne
    . rw [hdecode, readBar_writeBar_self, hreg]
      exact decode32 hk hn (by omega) ha.dvd hfixed
    . unfold writeBar
      rw [ha.log, ht.log]
  . exact ha.valid

lemma upper_half (hw : w = 32 ∨ w = 64)
    : (if 32 < w then (addr >>> 32).setWidth 32 else 0) = (addr.setWidth 64 >>> 32).setWidth 32
      ∧ addr.setWidth 32 = (addr.setWidth 64).setWidth 32 ∧ (addr.setWidth 64).toNat = addr.toNat := by
  have hlt := addr.isLt
  rcases hw with rfl | rfl
  . refine ⟨?_, ?_, ?_⟩
    . apply BitVec.eq_of_toNat_eq
      rw [if_neg (by decide), BitVec.toNat_setWidth, BitVec.toNat_ushiftRight, BitVec.toNat_setWidth,
        mod_eq_of_lt (by omega : addr.toNat < 2 ^ 64), shiftRight_eq_div_pow, div_eq_of_lt hlt]
      rfl
    . simp
    . rw [BitVec.toNat_setWidth]
      exact mod_eq_of_lt (by omega)
  . simp

lemma assign64 {hk : 4 ≤ k ∧ k < 64}
    (hbars : dev.bars = pre ++ b :: post) (hb : b = .mem64 k prefetch hk) (hw : w = 32 ∨ w = 64)
    (ht : Tickled dev s s₁ (regCount pre)) (hdone : Done dev s (regCount pre)) (hvalid : RegionsValid s) (hkw : k < w)
    (hregion : s.region res = some region) (hroom : Room region k)
    : Step dev pre b (assign s₁ (regCount pre) res (sizeOf w k) true false) := by
  have hlen : b.regs.length = 2 := by
    rw [hb]
    rfl
  have hreg0 : dev.reg (regCount pre) = ⟨(addrMask 64 k).setWidth 32, memFlags true prefetch⟩ := by
    have := @Device.reg_eq _ 0 _ _ b hbars (by omega)
    rw [hb] at this
    exact this
  have hreg1 : dev.reg (regCount pre + 1) = ⟨(addrMask 64 k >>> 32).setWidth 32, 0⟩ := by
    have := @Device.reg_eq _ 1 _ _ b hbars (by omega)
    rw [hb] at this
    exact this
  have hvalid1 : RegionsValid s₁ := by
    unfold RegionsValid
    rw [ht.region]
    exact hvalid
  have hregion1 : s₁.region res = some region := by
    rw [ht.region, hregion]
  obtain ⟨addr, s2, halloc⟩ := allocate_isSome hkw hvalid1 hregion1 hroom
  obtain ⟨ha, _⟩ := allocate_allocated hkw hvalid1 (by
    intro region' hregion'
    rw [hregion1] at hregion'
    cases hregion'
    exact hroom.noWrap (hvalid1 res region hregion1)) halloc
  obtain ⟨hupper, hlower, htoNat⟩ := upper_half hw
  unfold assign
  rw [if_neg (by decide), halloc]
  dsimp only
  rw [if_pos rfl]
  refine ⟨?_, ?_, ha.valid⟩
  . rw [hlen]
  generalize hs3 : (s2.writeBar (regCount pre) (addr.setWidth 32)).writeBar (regCount pre + 1)
    (if 32 < w then (addr >>> 32).setWidth 32 else 0) = s3
  have hread : ∀ j < regCount pre, s3.readBar dev j = s.readBar dev j := by
    intro j hj
    rw [← hs3, readBar_writeBar_of_ne _ (by omega), readBar_writeBar_of_ne _ (by omega), ← ht.read j hj]
    unfold readBar
    rw [ha.config]
  have hread0 : s3.readBar dev (regCount pre)
      = ((addr.setWidth 64).setWidth 32 &&& (addrMask 64 k).setWidth 32) ||| memFlags true prefetch := by
    rw [← hs3, readBar_writeBar_of_ne _ (by omega), readBar_writeBar_self, hreg0, hlower]
  have hread1 : s3.readBar dev (regCount pre + 1)
      = ((addr.setWidth 64 >>> 32).setWidth 32 &&& (addrMask 64 k >>> 32).setWidth 32) ||| 0#32 := by
    rw [← hs3, readBar_writeBar_self, hreg1, hupper]
    rfl
  apply hdone.concat hread hbars
  . rw [← hs3]
    unfold writeBar
    rw [ha.log, ht.log]
  . rw [hb]
    intro
    contradiction
  rw [hb]
  unfold Bar.decode
  dsimp only
  rw [hread0, hread1, decode64 hk.2 (by rw [htoNat]; exact ha.dvd)
    (memFlags_and_addrMask ⟨k, hk.2⟩ hk.1 true prefetch).1,
    htoNat]

lemma memRes_eq {r : BitVec 32} (hregion : s₁.region = s.region)
    (hr : decide (r &&& pciBaseAddressMemPrefetch ≠ 0) = prefetch)
    : s.region (memRes s₁ r) = memRegion s prefetch := by
  unfold memRes memRegion
  rw [hregion, ← hr]

lemma setupBar_step {pre post : List Bar} {b : Bar} {cmdstat : BitVec 16} (hbars : dev.bars = pre ++ b :: post)
    (hw : w = 32 ∨ w = 64) (hdone : Done dev s (regCount pre)) (hvalid : RegionsValid s) (hcond : BarCond s b)
    : Step dev pre b ((setupBar dev false (regCount pre) s cmdstat).1,
      (setupBar dev false (regCount pre) s cmdstat).2.1) := by
  have ht := @writeBar_tickled w dev _ (regCount pre) s le_rfl 0xffffffff
  have hresponse := @readBar_writeBar_self w dev s (regCount pre) 0xffffffff
  unfold setupBar
  simp only [Bool.false_eq_true, ↓reduceIte, Bool.not_false]
  cases b with
  | unused =>
    have hreg : dev.reg (regCount pre) = ⟨0, 0⟩ := Device.reg_eq hbars zero_lt_one
    rw [hreg] at hresponse
    rw [hresponse, if_pos (by decide)]
    exact ⟨rfl, ht.done hdone (le_add_right _ _), hvalid⟩
  | io k hk =>
    have hreg : dev.reg (regCount pre) = ⟨addrMask 32 k, 1⟩ := Device.reg_eq hbars zero_lt_one
    obtain ⟨hne, hspace, hsize⟩ := io_response ⟨k, by omega⟩ hk.1
    rw [hreg] at hresponse
    have hresponse : _ = (0xffffffff#32 &&& addrMask 32 k) ||| 1 := hresponse
    rw [hresponse, if_neg hne, if_pos hspace, hsize, setWidth_ofNat (by omega)]
    have hfixed := one_and_addrMask ⟨k, by omega⟩ hk.1
    exact assign32 (n := 32) hbars (by omega) le_rfl (by omega) (by rw [BitVec.setWidth_eq]; rfl)
      (by rwa [BitVec.setWidth_eq]) (by intro; contradiction)
        (fun _ _ => by rw [BitVec.setWidth_eq]; rfl) ht hdone hvalid hcond
  | io16 k hk =>
    have hreg : dev.reg (regCount pre) = ⟨(addrMask 16 k).setWidth 32, 1⟩ := Device.reg_eq hbars zero_lt_one
    obtain ⟨hne, hspace, hsize, hfixed⟩ := io16_response ⟨k, hk.2⟩ hk.1
    rw [hreg] at hresponse
    have hresponse : _ = (0xffffffff#32 &&& (addrMask 16 k).setWidth 32) ||| 1 := hresponse
    rw [hresponse, if_neg hne, if_pos hspace, hsize, setWidth_ofNat (by omega)]
    exact assign32 hbars hk.2 (by decide) (by omega) rfl hfixed (by intro; contradiction)
      (fun _ _ => rfl) ht hdone hvalid
      hcond
  | mem32 k prefetch hk =>
    have hreg : dev.reg (regCount pre) = ⟨addrMask 32 k, memFlags false prefetch⟩ := Device.reg_eq hbars zero_lt_one
    obtain ⟨hne, hspace, htype, hsize, hprefetch⟩ := mem32_response ⟨k, hk.2⟩ hk.1 prefetch
    rw [hreg] at hresponse
    have hresponse : _ = (0xffffffff#32 &&& addrMask 32 k) ||| memFlags false prefetch := hresponse
    rw [hresponse, if_neg hne, if_neg (not_not_intro hspace), if_neg htype, hsize, setWidth_ofNat hk.2]
    have hfixed := (memFlags_and_addrMask ⟨k, by omega⟩ hk.1 false prefetch).2
    apply assign32 (n := 32) hbars hk.2 le_rfl (by omega) (by rw [BitVec.setWidth_eq]; rfl) (by rwa [BitVec.setWidth_eq])
      (by intro; contradiction) (fun _ _ => by rw [BitVec.setWidth_eq]; rfl) ht hdone hvalid
    rw [memRes_eq ht.region hprefetch]
    exact hcond
  | mem64 k prefetch hk =>
    have hreg0 : dev.reg (regCount pre) = ⟨(addrMask 64 k).setWidth 32, memFlags true prefetch⟩ :=
      Device.reg_eq hbars zero_lt_two
    have hreg1 : dev.reg (regCount pre + 1) = ⟨(addrMask 64 k >>> 32).setWidth 32, 0⟩ := Device.reg_eq hbars one_lt_two
    obtain ⟨hne, hspace, htype, hsize, hprefetch⟩ := mem64_response ⟨k, hk.2⟩ hk.1 prefetch
    obtain ⟨hkw, res, hres, hroom⟩ := hcond
    rw [hreg0] at hresponse
    have hresponse : _ = (0xffffffff#32 &&& (addrMask 64 k).setWidth 32) ||| memFlags true prefetch := hresponse
    have hupper := @readBar_writeBar_self w dev (s.writeBar (regCount pre) 0xffffffff) (regCount pre + 1) 0xffffffff
    rw [hreg1] at hupper
    have hupper : _ = (0xffffffff#32 &&& (addrMask 64 k >>> 32).setWidth 32) ||| 0 := hupper
    rw [hresponse, if_neg hne, if_neg (not_not_intro hspace), if_pos htype, hupper, hsize, setWidth_ofNat hk.2]
    have ht1 : Tickled dev s ((s.writeBar (regCount pre) 0xffffffff).writeBar (regCount pre + 1) 0xffffffff)
        (regCount pre) := by
      refine ⟨rfl, rfl, ?_⟩
      intro j hj
      rw [readBar_writeBar_of_ne _ (by omega)]
      exact ht.read j hj
    refine assign64 hbars rfl hw ht1 hdone hvalid hkw ?_ hroom
    rw [memRes_eq ht1.region hprefetch]
    exact hres

lemma setupBar_cmdstat (cmdstat cmdstat' : BitVec 16)
    : (setupBar dev false i s cmdstat).1 = (setupBar dev false i s cmdstat').1
      ∧ (setupBar dev false i s cmdstat).2.1 = (setupBar dev false i s cmdstat').2.1 := by
  unfold setupBar
  dsimp only
  repeat' split
  all_goals exact ⟨rfl, rfl⟩

def RomCond (dev : Device) (s : State w) : Prop := ∀ k, dev.rom = some k → CondBelow 32 (s.region .mem) k.val

def SetupCond (dev : Device) : List Bar → Nat → State w → Prop
  | [], _, s => RomCond dev s
  | b :: bars, i, s => BarCond s b ∧ SetupCond dev bars (i + b.regs.length) (setupBar dev false i s 0).1

lemma loop_done {pre post : List Bar} {fuel : Nat} {cmdstat : BitVec 16} (hbars : dev.bars = pre ++ post)
    (hw : w = 32 ∨ w = 64) (hfuel : regCount post ≤ fuel) (hdone : Done dev s (regCount pre)) (hvalid : RegionsValid s)
    (hcond : SetupCond dev post (regCount pre) s)
    : let s' := (loop dev (regCount dev.bars) false fuel (regCount pre) s cmdstat).1
      Done dev s' (regCount dev.bars) ∧ RegionsValid s' ∧ RomCond dev s' := by
  induction post generalizing pre fuel s cmdstat with
  | nil =>
    rw [append_nil] at hbars
    have hloop : loop dev (regCount dev.bars) false fuel (regCount pre) s cmdstat = (s, cmdstat) := by
      cases fuel with
      | zero => rfl
      | succ fuel =>
        unfold loop
        rw [hbars, if_neg (lt_irrefl _)]
    rw [hloop, hbars]
    exact ⟨hdone, hvalid, hcond⟩
  | cons b post ih =>
    have hstep := @dmPciautoSetupDevice.setupBar_step w _ s _ _ b cmdstat hbars hw hdone hvalid hcond.1
    have hregs : 0 < b.regs.length := by
      cases b with
      | unused => exact zero_lt_one
      | io k hk => exact zero_lt_one
      | io16 k hk => exact zero_lt_one
      | mem32 k prefetch hk => exact zero_lt_one
      | mem64 k prefetch hk => exact zero_lt_two
    have hcount : regCount (b :: post) = b.regs.length + regCount post := by
      unfold regCount
      rw [flatMap_cons, length_append]
    have htotal : regCount dev.bars = regCount pre + regCount (b :: post) := by
      unfold regCount
      rw [hbars, flatMap_append, length_append]
    obtain ⟨fuel, rfl⟩ : ∃ n, fuel = n + 1 := ⟨fuel - 1, by omega⟩
    have hcmdstat := @setupBar_cmdstat w dev s (regCount pre) cmdstat 0
    have hcond := hcond.2
    rw [← hcmdstat.1] at hcond
    unfold loop
    rw [if_pos (by omega)]
    obtain ⟨hnext, hdone1, hvalid1⟩ := hstep
    dsimp only at hnext hdone1 hvalid1 hcond ⊢
    rw [hnext, ← regCount_append]
    rw [← regCount_append] at hdone1 hcond
    apply ih
    . rw [hbars, append_assoc]
      rfl
    . omega
    . exact hdone1
    . exact hvalid1
    . exact hcond

end dmPciautoSetupDevice

def Decodes (dev : Device) (s : State w) (a : Alloc w) : Prop :=
  match a.bar with
  | some i => ∃ pre b post, dev.bars = pre ++ b :: post ∧ i = regCount pre ∧ b ≠ .unused
    ∧ b.decode (s.readBar dev) i = a.addr.toNat
  | none => ∃ k, dev.rom = some k ∧ (s.readRom dev &&& addrMask 32 k.val).toNat = a.addr.toNat

lemma Done.decodes (h : Done dev s n) (hbars : s'.config.bars = s.config.bars) : ∀ a ∈ s.log, Decodes dev s' a := by
  intro a ha
  obtain ⟨pre, b, post, hdev, hbar, _, hne, hdecode⟩ := h a ha
  unfold Decodes
  rw [hbar]
  refine ⟨pre, b, post, hdev, rfl, hne, ?_⟩
  rw [← hdecode]
  apply Bar.decode_congr
  intro j _
  unfold readBar
  rw [hbars]

lemma decodeRom (hk : 11 ≤ k ∧ k < 32) (hlt : addr.toNat < 2 ^ 32) (hdvd : 2 ^ k ∣ addr.toNat)
    : (((addr.setWidth 32 &&& (addrMask 32 k ||| 1)) ||| 0) &&& addrMask 32 k).toNat = addr.toNat := by
  have hone := one_and_addrMask ⟨k, hk.2⟩ (le_trans (by decide) hk.1)
  have hmask : ((addr.setWidth 32 &&& (addrMask 32 k ||| 1)) ||| 0) &&& addrMask 32 k
      = ((addr.setWidth 32 &&& addrMask 32 k) ||| 0) &&& addrMask 32 k := by
    have hlow : (addr.setWidth 32 &&& 1#32) &&& addrMask 32 k = 0#32 := by
      rw [BitVec.and_assoc, hone]
      exact BitVec.and_zero
    simp only [BitVec.ofNat_eq_ofNat, BitVec.and_or_distrib_left, BitVec.and_or_distrib_right, hlow, BitVec.or_zero]
  have hdecode := @decode32 32 0 w k addr hk.2 le_rfl hlt hdvd BitVec.zero_and
  rw [BitVec.setWidth_eq] at hdecode
  rw [hmask]
  exact hdecode

lemma setupRom_decodes {n : Nat} {cmdstat : BitVec 16} (hw : w = 32 ∨ w = 64) (hdone : Done dev s n)
    (hvalid : RegionsValid s) (hcond : dmPciautoSetupDevice.RomCond dev s)
    : ∀ a ∈ (dmPciautoSetupDevice.setupRom dev s cmdstat).1.log,
      Decodes dev (dmPciautoSetupDevice.setupRom dev s cmdstat).1 a := by
  unfold dmPciautoSetupDevice.setupRom
  dsimp only
  split
  . split
    . next hresponse =>
      cases hrom : dev.rom with
      | none =>
        exfalso
        apply hresponse
        unfold readRom Device.romReg
        rw [hrom]
        simp only [BitVec.ofNat_eq_ofNat, BitVec.and_zero, BitVec.or_zero]
      | some k =>
        have hread : (s.writeRom 0xfffffffe).readRom dev = (0xfffffffe#32 &&& (addrMask 32 k.val ||| 1)) ||| 0 := by
          unfold readRom Device.romReg
          rw [hrom]
          rfl
        have hsize := (rom_response ⟨k.val, k.property.2⟩ k.property.1).2
        rw [hread, hsize, setWidth_ofNat k.property.2]
        split
        . exact hdone.decodes rfl
        next addr s₁ halloc =>
        have hcond := hcond k hrom
        obtain ⟨ha, region, hregion, hstop⟩ := @State.allocate_allocated w (s.writeRom 0xfffffffe) s₁ _ _ _ _
          (by have := k.property; omega) hvalid (fun region hregion => (hcond region hregion).1) halloc
        have hlow := (hcond region hregion).2
        have htwo := Nat.two_pow_pos k.val
        intro a hmem
        have hmem : a ∈ s₁.log := hmem
        rw [ha.log, mem_append, mem_singleton] at hmem
        rcases hmem with hmem | rfl
        . refine hdone.decodes ?_ a hmem
          unfold writeRom
          rw [ha.config]
          rfl
        refine ⟨k, hrom, ?_⟩
        unfold readRom Device.romReg
        rw [hrom]
        exact decodeRom k.property (by omega) ha.dvd
    . exact hdone.decodes rfl
  . exact hdone.decodes rfl

lemma dmPciautoSetupDevice_decodes (hw : w = 32 ∨ w = 64) (hlog : s.log = []) (hvalid : RegionsValid s)
    (hcond : dmPciautoSetupDevice.SetupCond dev dev.bars 0 s)
    : ∀ a ∈ (dmPciautoSetupDevice dev (regCount dev.bars) false s).log,
      Decodes dev (dmPciautoSetupDevice dev (regCount dev.bars) false s) a := by
  have hdone : Done dev s (regCount []) := by
    intro a ha
    rw [hlog] at ha
    contradiction
  have hloop (cmdstat : BitVec 16) := @dmPciautoSetupDevice.loop_done w _ s [] _ _ cmdstat rfl hw
    le_rfl hdone hvalid hcond
  unfold dmPciautoSetupDevice
  dsimp only
  specialize hloop ((s.config.command &&& ~~~(pciCommandIo ||| pciCommandMemory)) ||| pciCommandMaster)
  have hzero : regCount [] = 0 := rfl
  rw [hzero] at hloop
  generalize dmPciautoSetupDevice.loop dev (regCount dev.bars) false (regCount dev.bars) 0 s _ = result at hloop
  obtain ⟨s₁, cmdstat⟩ := result
  obtain ⟨hdone1, hvalid1, hrom⟩ := hloop
  have hsetup := @setupRom_decodes w _ s₁ _ cmdstat hw hdone1 hvalid1 hrom
  exact hsetup

end

theorem pciauto_disjoint (hw : w = 32 ∨ w = 64)
    : (∀ (res₀ res : PciRegion w) (l : List (Nat × Nat)), res₀.stop ≤ 2 ^ w → Trace NoWrap res₀ res l →
        (∀ x ∈ l, InRegion res₀ x) ∧ l.Pairwise Disjoint)
      ∧ ∀ (dev : Device) (s : State w), s.log = [] →
        (∀ i res, s.region i = some res → ∃ res₀ l, res₀.stop ≤ 2 ^ w ∧ Trace NoWrap res₀ res l) →
        dmPciautoSetupDevice.SetupCond dev dev.bars 0 s →
        ∀ a ∈ (dmPciautoSetupDevice dev (regCount dev.bars) false s).log,
          Decodes dev (dmPciautoSetupDevice dev (regCount dev.bars) false s) a := by
  constructor
  . intro res₀ res l hstop htrace
    have hinv := htrace.inv hstop
    exact ⟨hinv.inRegion, hinv.disjoint⟩
  intro dev s hlog hregions hcond
  apply dmPciautoSetupDevice_decodes hw hlog _ hcond
  intro i res hres
  obtain ⟨res₀, l, hstop, htrace⟩ := hregions i res hres
  exact (htrace.inv hstop).valid

namespace Sample

def region : PciRegion 64 := ⟨0x80000000, 0x10000000, 0⟩

def dev : Device where
  bars := [.mem64 12 false (by decide)]
  rom := none
  headerType := 0
  pciClass := 0

def state (region : PciRegion 64) : State 64 where
  config := ⟨fun _ => 0, 0, 0, 0, 0⟩
  region := fun res => if res = .mem then some (pciautoRegionInit region) else none
  log := []

lemma noWrap {res : PciRegion 64} (hpos : position res.busLower + 2 ^ k + 2 ^ k ≤ 2 ^ 64) : NoWrap res k := by
  intro a _ hlt _
  left
  omega

def next (res : PciRegion 64) (k : Nat) : PciRegion 64 := ((pciautoRegionAllocate res (sizeOf 64 k)).getD (0, res)).2

lemma trace : Trace NoWrap region (next (next (pciautoRegionInit region) 12) 13) [(0x80002000, 2 ^ 13),
    (0x80000000, 2 ^ 12)] := by
  have hfirst : pciautoRegionAllocate (pciautoRegionInit region) (sizeOf 64 12)
      = some (0x80000000#64, next (pciautoRegionInit region) 12) := by
    decide
  have hsecond : pciautoRegionAllocate (next (pciautoRegionInit region) 12) (sizeOf 64 13)
      = some (0x80002000#64, next (next (pciautoRegionInit region) 12) 13) := by
    decide
  exact (Trace.init.allocate (by decide) (noWrap (by decide)) hfirst).allocate (by decide) (noWrap (by decide)) hsecond

def dev32 : Device := { dev with bars := [.mem32 12 false (by decide)] }

def high : PciRegion 64 := ⟨0x100000000, 0x10000000, 0⟩

lemma not_decodes : ¬Decodes dev32 (dmPciautoSetupDevice dev32 1 false (state high)) ⟨some 0, 0x100000000⟩ := by
  rintro ⟨pre, b, post, hbars, _, _, hdecode⟩
  have hb : b = .mem32 12 false (by decide) := by
    have : b ∈ dev32.bars := by
      rw [hbars]
      exact mem_append_right _ mem_cons_self
    exact mem_singleton.mp this
  rw [hb] at hdecode
  have hdecode : ((dmPciautoSetupDevice dev32 1 false (state high)).readBar dev32 0 &&& addrMask 32 12).toNat
    = 0x100000000 := hdecode
  omega

lemma setupCond : dmPciautoSetupDevice.SetupCond dev dev.bars 0 (state region) := by
  refine ⟨⟨by decide, pciautoRegionInit region, rfl, 0x80000000, by decide, by decide, by decide⟩, ?_⟩
  intro k h
  contradiction

end Sample

open Sample

theorem pciauto_disjoint_sample
    : [(0x80002000, 2 ^ 13), (0x80000000, 2 ^ 12)].Pairwise Disjoint
      ∧ (dmPciautoSetupDevice Sample.dev 2 false (Sample.state Sample.region)).log = [⟨some 0, 0x80000000⟩]
      ∧ Decodes Sample.dev (dmPciautoSetupDevice Sample.dev 2 false (Sample.state Sample.region))
        ⟨some 0, 0x80000000⟩ := by
  have h := pciauto_disjoint (.inr rfl)
  have hlog : (dmPciautoSetupDevice dev 2 false (state region)).log = [⟨some 0, 0x80000000⟩] := by
    decide +kernel
  refine ⟨(h.1 _ _ _ (by decide) trace).2, hlog, ?_⟩
  apply h.2 dev (state region) rfl _ setupCond
  . have : regCount dev.bars = 2 := rfl
    exact mem_singleton_self _
  intro i res hres
  unfold state at hres
  dsimp only at hres
  split at hres
  . cases hres
    exact ⟨region, [], by decide, .init⟩
  . contradiction

/--
2 GiB at 0 are taken for more than 2 GiB when a range of this size ends with the address space, and a 32-bit register loses
the upper half of an address.
-/
theorem not_disjoint_wrap
    : (∃ (res₀ res : PciRegion 32), res₀.stop ≤ 2 ^ 32 ∧ Trace (fun _ _ => True) res₀ res [(0x80000000, 2 ^ 31)]
        ∧ ¬InRegion res₀ (0x80000000, 2 ^ 31))
      ∧ ∃ (dev : Device) (s : State 64) (a : Alloc 64), s.log = []
        ∧ a ∈ (dmPciautoSetupDevice dev 1 false s).log ∧ a.addr = 0x100000000
        ∧ ¬Decodes dev (dmPciautoSetupDevice dev 1 false s) a := by
  constructor
  . have halloc : pciautoRegionAllocate (pciautoRegionInit ⟨0, 0x80000000, 0⟩) (sizeOf 32 31)
        = some (0x80000000#32, ⟨0, 0x80000000, 0⟩) := by
      decide
    refine ⟨⟨0, 0x80000000, 0⟩, ⟨0, 0x80000000, 0⟩, by decide, ?_, ?_⟩
    . exact Trace.init.allocate (by decide) trivial halloc
    . intro h
      exact absurd h.2.2 (by decide)
  refine ⟨dev32, state high, ⟨some 0, 0x100000000⟩, rfl, ?_, rfl, not_decodes⟩
  exact mem_singleton_self _

end UBoot.Pci
