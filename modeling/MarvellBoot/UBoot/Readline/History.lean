import Mathlib

namespace UBoot.Readline

open Function List

abbrev Line := List UInt8

def histMax : Nat := 20

-- The static variables of the history, without `hist_` in front.
structure Hist where
  max : Nat
  addIdx : Nat
  cur : Int
  list : Nat → Line

def histInit : Hist := { max := 0, addIdx := 0, cur := -1, list := fun _ => [] }

def creadAddToHist (line : Line) (h : Hist) : Hist :=
  let list := update h.list h.addIdx line
  let addIdx := if histMax ≤ h.addIdx + 1 then 0 else h.addIdx + 1
  { h with list, addIdx, max := if h.max < addIdx then addIdx else h.max }

def histPrev (h : Hist) : Option Line × Hist :=
  if h.cur < 0 then
    (none, h)
  else
    let cur : Int := if h.cur - 1 < 0 then h.max else h.cur - 1
    if cur = h.addIdx then (none, h) else (some (h.list cur.toNat), { h with cur })

def histNext (h : Hist) : Option Line × Hist :=
  if h.cur < 0 ∨ h.cur = h.addIdx then
    (none, h)
  else
    let cur : Int := if h.max < h.cur + 1 then 0 else h.cur + 1
    (some (if cur = h.addIdx then [] else h.list cur.toNat), { h with cur })

inductive Key where
  | up
  | down

-- The line in the buffer is replaced by the one that was found.
def press (key : Key) (s : Line × Hist) : Line × Hist :=
  let (hline, h) := match key with
    | .up => histPrev s.2
    | .down => histNext s.2
  (hline.getD s.1, h)

inductive Stop where
  | enter (line : Line)
  | ctrlC
  | timeout

-- The prompt begins with `init` in the buffer. The other keys do not look at the history, any line can be entered with
-- them.
structure Prompt where
  init : Line
  keys : List Key
  stop : Stop

def Prompt.pressed (p : Prompt) (h : Hist) : Hist := (p.keys.foldl (fun s key => press key s) (p.init, h)).2

def isRecorded (line : Line) : Bool := line ≠ [] ∧ line.head? ≠ some 0x21

def creadLine (p : Prompt) (h : Hist) : Hist :=
  let h := p.pressed h
  match p.stop with
  | .enter line =>
    let h := if isRecorded line then creadAddToHist line h else h
    { h with cur := h.addIdx }
  | _ => h

def recorded : Stop → List Line
  | .enter line => if isRecorded line then [line] else []
  | _ => []

def session : List Prompt → Hist × List Line → Hist × List Line
  | [], s => s
  | p :: ps, s => session ps (creadLine p s.1, recorded p.stop ++ s.2)

-- How many lines back the keys lead when `n` can be reached.
def back (n : Nat) : List Key → (k : Nat) → Nat
  | [], k => k
  | .up :: keys, k => back n keys (if k < n then k + 1 else k)
  | .down :: keys, k => back n keys (k - 1)

-- In a prompt that is not ended by Enter, each Up that has an effect is taken back with Down.
def Steady : List Prompt → List Line → Prop
  | [], _ => True
  | p :: ps, lines =>
    (match p.stop with
      | .enter _ => True
      | _ => back (min lines.length 19) p.keys 0 = 0) ∧ Steady ps (recorded p.stop ++ lines)

def ups (init : Line) (h : Hist) (k : Nat) : Line × Hist := (press .up)^[k] (init, h)

-- One of the 20 slots is always free.
structure Recalls (init : Line) (h : Hist) (lines : List Line) : Prop where
  shows : ∀ k < min lines.length 19, lines[k]? = some (ups init h (k + 1)).1
  stays : ∀ k ≥ min lines.length 19, ups init h k = ups init h (min lines.length 19)
  undone : ∀ k < min lines.length 19, press .down (ups init h (k + 1)) = ups init h k

structure Ring (h : Hist) (lines : List Line) : Prop where
  addIdx : h.addIdx = lines.length % 20
  max : h.max = min lines.length 19
  list : ∀ i < 19, ∀ line, lines[i]? = some line → h.list ((lines.length - 1 - i) % 20) = line

def view (init : Line) (h : Hist) (lines : List Line) (k : Nat) : Line × Hist :=
  ((init :: lines).getD k [], { h with cur := ((lines.length - k) % 20 : Nat) })

variable {h : Hist} {lines : List Line} {line init : Line} {k m : Nat}

lemma Ring.view_succ (hr : Ring h lines) (hk : k < min lines.length 19)
    : (view init h lines (k + 1)).1 = h.list ((lines.length - (k + 1)) % 20) := by
  have hlt : k < lines.length := by omega
  have hline := hr.list k (by omega) _ (getElem?_eq_getElem hlt)
  rw [Nat.sub_sub, Nat.add_comm 1 k] at hline
  rw [hline, view, getD_cons_succ, getD_eq_getElem?_getD, getElem?_eq_getElem hlt]
  rfl

lemma press_up_eq {s : Line × Hist} {cur : Int} (hcur : ¬s.2.cur < 0)
    (hprev : (if s.2.cur - 1 < 0 then (s.2.max : Int) else s.2.cur - 1) = cur)
    : press .up s = if cur = s.2.addIdx then s else (s.2.list cur.toNat, { s.2 with cur }) := by
  simp only [press, histPrev]
  rw [if_neg hcur, hprev]
  split <;> rfl

lemma press_down_eq {s : Line × Hist} {cur : Int} (hcur : ¬(s.2.cur < 0 ∨ s.2.cur = s.2.addIdx))
    (hnext : (if (s.2.max : Int) < s.2.cur + 1 then 0 else s.2.cur + 1) = cur)
    : press .down s = (if cur = s.2.addIdx then [] else s.2.list cur.toNat, { s.2 with cur }) := by
  simp only [press, histNext]
  rw [if_neg hcur, hnext]
  rfl

section

variable (hr : Ring h lines)

include hr

lemma Ring.press_up (hk : k < min lines.length 19) : press .up (view init h lines k) = view init h lines (k + 1) := by
  have hadd := hr.addIdx
  have hmax := hr.max
  rw [@press_up_eq (view init h lines k) ((lines.length - (k + 1)) % 20 : Nat), if_neg]
  . exact Prod.ext (hr.view_succ hk).symm rfl
  all_goals
    simp only [view]
    grind

lemma Ring.press_up_last
    : press .up (view init h lines (min lines.length 19)) = view init h lines (min lines.length 19) := by
  have hadd := hr.addIdx
  have hmax := hr.max
  rw [@press_up_eq (view init h lines (min lines.length 19)) h.addIdx]
  . exact if_pos rfl
  all_goals
    simp only [view]
    grind

-- The text that the prompt began with does not come back.
lemma Ring.press_down (hk : k < min lines.length 19)
    : press .down (view init h lines (k + 1)) = view [] h lines k := by
  have hadd := hr.addIdx
  have hmax := hr.max
  rw [@press_down_eq (view init h lines (k + 1)) ((lines.length - k) % 20 : Nat)]
  . cases k with
    | zero => exact Prod.ext (if_pos (by simp [view, hadd])) rfl
    | succ k =>
      rw [if_neg (by simp only [view]; omega)]
      exact Prod.ext (hr.view_succ (by omega)).symm rfl
  all_goals
    simp only [view]
    grind

lemma Ring.press_down_zero : press .down (view init h lines 0) = view init h lines 0 := by
  have hcur : (view init h lines 0).2.cur = (view init h lines 0).2.addIdx := by simp [view, hr.addIdx]
  simp only [press, histNext]
  rw [if_pos (.inr hcur)]
  rfl

end

lemma ups_eq {v : Nat → Line × Hist} (h0 : v 0 = (init, h)) (hup : ∀ k < m, press .up (v k) = v (k + 1))
    (hlast : press .up (v m) = v m) (k : Nat) : ups init h k = v (min k m) := by
  induction k with
  | zero => simp [ups, h0]
  | succ k ih =>
    rw [ups, iterate_succ_apply', ← ups, ih]
    by_cases hk : k < m
    . rw [Nat.min_eq_left (Nat.le_of_lt hk), Nat.min_eq_left hk, hup k hk]
    . rw [Nat.min_eq_right (by omega), Nat.min_eq_right (by omega), hlast]

lemma view_zero (hr : Ring h lines) (hcur : h.cur = h.addIdx) : view init h lines 0 = (init, h) := by
  rw [hr.addIdx] at hcur
  simp [view, ← hcur]

lemma recalls_nil (hlast : press .up (init, h) = (init, h)) : Recalls init h [] := by
  have hups := @ups_eq h init 0 (fun _ => (init, h)) rfl (by simp) hlast
  exact ⟨by simp, fun k _ => by rw [hups, hups], by simp⟩

lemma Ring.recalls_iff (hr : Ring h lines) (hcur : h.cur = h.addIdx)
    : Recalls init h lines ↔ init = [] ∨ lines = [] := by
  have hups := @ups_eq h init _ _ (view_zero hr hcur) (fun _ => hr.press_up) hr.press_up_last
  constructor
  . intro hrecalls
    by_contra hnot
    rw [not_or] at hnot
    have hpos : 0 < min lines.length 19 := by
      have := length_pos_iff.mpr hnot.2
      omega
    have hundone := congrArg Prod.fst (hrecalls.undone 0 hpos)
    rw [hups, hups, Nat.min_eq_left hpos, Nat.min_eq_left (Nat.zero_le _), hr.press_down hpos] at hundone
    exact hnot.1 hundone.symm
  . rintro (rfl | rfl)
    . constructor
      . intro k hk
        rw [hups, Nat.min_eq_left hk, view, getD_cons_succ, getD_eq_getElem?_getD, getElem?_eq_getElem (by omega)]
        rfl
      . intro k hk
        rw [hups, hups, Nat.min_self, Nat.min_eq_right hk]
      . intro k hk
        rw [hups, hups, Nat.min_eq_left hk, Nat.min_eq_left (Nat.le_of_lt hk), hr.press_down hk]
    . have hlast := @Ring.press_up_last h [] init hr
      rw [length_nil, Nat.zero_min, view_zero hr hcur] at hlast
      exact recalls_nil hlast

lemma Ring.add (hr : Ring h lines) (line : Line) : Ring (creadAddToHist line h) (line :: lines) := by
  have hadd := hr.addIdx
  have hmax := hr.max
  constructor
  . simp only [creadAddToHist, histMax, length_cons]
    grind
  . simp only [creadAddToHist, histMax, length_cons]
    grind
  . intro i hi line' hline
    rw [length_cons, Nat.add_sub_cancel]
    dsimp only [creadAddToHist]
    cases i with
    | zero =>
      cases hline
      rw [hadd, Nat.sub_zero, update_self]
    | succ i =>
      rw [getElem?_cons_succ] at hline
      have ⟨hlt, _⟩ := List.getElem?_eq_some_iff.mp hline
      rw [update_of_ne (by omega), Nat.add_comm, ← Nat.sub_sub]
      exact hr.list i (by omega) line' hline

lemma Ring.press {s : Line × Hist} (hr : Ring s.2 lines) (key : Key) : Ring (press key s).2 lines := by
  cases key <;> dsimp only [Readline.press, histPrev, histNext] <;> repeat' split
  all_goals exact ⟨hr.addIdx, hr.max, hr.list⟩

lemma Ring.foldl_press {s : Line × Hist} (hr : Ring s.2 lines) (keys : List Key)
    : Ring (keys.foldl (fun s key => Readline.press key s) s).2 lines := by
  induction keys generalizing s with
  | nil => exact hr
  | cons key keys ih => exact ih (hr.press key)

lemma Ring.exists_press (hr : Ring h lines) (key : Key) (keys : List Key) (x : Line) (hk : k ≤ min lines.length 19)
    : ∃ k' ≤ min lines.length 19, back (min lines.length 19) (key :: keys) k = back (min lines.length 19) keys k'
      ∧ (Readline.press key (x, (view [] h lines k).2)).2 = (view [] h lines k').2 := by
  cases key with
  | up =>
    by_cases hlt : k < min lines.length 19
    . have hpress := congrArg Prod.snd (@Ring.press_up h lines [] k hr hlt)
      exact ⟨k + 1, hlt, by rw [back, if_pos hlt], hpress⟩
    . obtain rfl : k = min lines.length 19 := by omega
      have hpress := congrArg Prod.snd (@Ring.press_up_last h lines [] hr)
      exact ⟨_, le_rfl, by rw [back, if_neg hlt], hpress⟩
  | down =>
    cases k with
    | zero =>
      have hpress := congrArg Prod.snd (@Ring.press_down_zero h lines [] hr)
      exact ⟨0, hk, rfl, hpress⟩
    | succ k =>
      have hpress := congrArg Prod.snd (@Ring.press_down h lines [] k hr hk)
      exact ⟨k, by omega, rfl, hpress⟩

-- The line that is shown has no effect on the history.
lemma Ring.foldl_press_eq (hr : Ring h lines) {keys : List Key} {x : Line} (hk : k ≤ min lines.length 19)
    : (keys.foldl (fun s key => Readline.press key s) (x, (view [] h lines k).2)).2
      = (view [] h lines (back (min lines.length 19) keys k)).2 := by
  induction keys generalizing k x with
  | nil => rfl
  | cons key keys ih =>
    obtain ⟨k', hk', hback, hpress⟩ := hr.exists_press key keys x hk
    rw [foldl_cons, hback, ← ih hk', ← hpress]

lemma foldl_press_of_neg {keys : List Key} {x : Line} (hcur : h.cur < 0)
    : (keys.foldl (fun s key => press key s) (x, h)) = (x, h) := by
  induction keys with
  | nil => rfl
  | cons key keys ih =>
    have hpress : press key (x, h) = (x, h) := by
      cases key with
      | up => simp [press, histPrev, hcur]
      | down => simp [press, histNext, hcur]
    rw [foldl_cons, hpress, ih]

structure Ready (s : Hist × List Line) : Prop where
  ring : Ring s.1 s.2
  cur : s.1.cur = s.1.addIdx ∨ s.2 = [] ∧ s.1.cur = -1

lemma Ready.pressed {s : Hist × List Line} {p : Prompt} (hs : Ready s) (hback : back (min s.2.length 19) p.keys 0 = 0)
    : p.pressed s.1 = s.1 := by
  rcases hs.cur with hcur | ⟨_, hcur⟩
  . have hkeys := @Ring.foldl_press_eq s.1 s.2 0 hs.ring p.keys p.init (Nat.zero_le _)
    rw [hback, view_zero hs.ring hcur] at hkeys
    exact hkeys
  . rw [Prompt.pressed, foldl_press_of_neg (by omega)]

lemma Ready.session {s : Hist × List Line} {ps : List Prompt} (hs : Ready s) (hsteady : Steady ps s.2)
    : Ready (session ps s) := by
  induction ps generalizing s with
  | nil => exact hs
  | cons p ps ih =>
    have ⟨hkept, hrest⟩ := hsteady
    refine ih ?_ hrest
    rw [creadLine]
    cases hstop : p.stop with
    | enter line =>
      have hr : Ring (p.pressed s.1) s.2 := Ring.foldl_press (s := (p.init, s.1)) hs.ring p.keys
      refine ⟨?_, .inl rfl⟩
      dsimp only [recorded]
      split
      . have hadd := hr.add line
        exact ⟨hadd.addIdx, hadd.max, hadd.list⟩
      . exact ⟨hr.addIdx, hr.max, hr.list⟩
    | ctrlC | timeout =>
      rw [hstop] at hkept
      rw [hs.pressed hkept]
      exact hs

lemma ready_init : Ready (histInit, []) := ⟨⟨rfl, rfl, by simp⟩, .inr ⟨rfl, rfl⟩⟩

lemma Ready.recalls_iff {s : Hist × List Line} (hs : Ready s) : Recalls init s.1 s.2 ↔ init = [] ∨ s.2 = [] := by
  rcases hs.cur with hcur | ⟨hnil, hcur⟩
  . exact hs.ring.recalls_iff hcur
  . have hlast : press .up (init, s.1) = (init, s.1) := by simp [press, histPrev, hcur]
    rw [hnil]
    exact ⟨fun _ => .inr rfl, fun _ => recalls_nil hlast⟩

theorem session_recalls_iff (ps : List Prompt) (hs : Steady ps []) (init : Line)
    : Recalls init (session ps (histInit, [])).1 (session ps (histInit, [])).2
      ↔ init = [] ∨ (session ps (histInit, [])).2 = [] :=
  (ready_init.session hs).recalls_iff

def entered (lines : List Line) : List Prompt := lines.map fun line => ⟨[], [], .enter line⟩

theorem session_recalls_steady
    : Recalls [] (session (entered [[0x61], [0x62]] ++ [⟨[0x63], [.up, .up, .up, .down, .down], .ctrlC⟩])
      (histInit, [])).1
      [[0x62], [0x61]] := by
  refine (session_recalls_iff (entered [[0x61], [0x62]] ++ [⟨[0x63], [.up, .up, .up, .down, .down], .ctrlC⟩]) ?_ []).mpr
    (.inl rfl)
  exact And.intro trivial (And.intro trivial (And.intro rfl trivial))

-- Ctrl-C after Up, and a prompt that begins with a text.
theorem not_recalls_ctrlC
    : ¬Recalls [] (session (entered [[0x61], [0x62]] ++ [⟨[], [.up], .ctrlC⟩]) (histInit, [])).1 [[0x62], [0x61]]
      ∧ ¬Recalls [0x63] (session (entered [[0x61]]) (histInit, [])).1 [[0x61]] := by
  constructor
  . intro h
    exact absurd (h.shows 0 (by decide)) (by decide)
  . intro h
    exact absurd (congrArg Prod.fst (h.undone 0 (by decide))) (by decide)

end UBoot.Readline
