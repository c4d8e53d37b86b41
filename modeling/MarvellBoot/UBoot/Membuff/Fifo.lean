import MarvellBoot.UBoot.Membuff.Lemmas

/-!
The bounded queue that a buffer is, and that every run of the buffer's operations is one of the queue.
-/

namespace UBoot.Membuff

open Mem

variable {f : Fifo} {s : State} {mb : Buff} {fuel : Nat} {m : Int → UInt8} {r : Realloc} {ret : Int}

inductive Op where
  | put (buff : List UInt8)
  | get (maxlen : Nat)
  | putbyte (ch : Int)
  | getbyte
  | peekbyte
  | makecontig
  | extendBy (by' : Nat) (max : Option Nat)
  | readline (maxlen : Nat) (minch : Int)

inductive Out where
  | put (written : Int)
  | get (bytes : List UInt8)
  | putbyte (ok : Bool)
  | getbyte (ret : Int)
  | peekbyte (ret : Int)
  | makecontig (ok : Bool)
  | extendBy (ret : Int)
  | readline (ret : Int) (str : List UInt8)

/--
A queue with room for one byte less than `size`. The bytes that have been accepted are those that have
been taken out, in order, followed by those that are still there.
-/
structure Fifo where
  size : Int
  queue : List UInt8
  accepted : List UInt8
  taken : List UInt8
  accepted_eq : accepted = taken ++ queue

namespace Fifo

def empty (size : Int) : Fifo where
  size := size
  queue := []
  accepted := []
  taken := []
  accepted_eq := rfl

def push (f : Fifo) (bytes : List UInt8) : Fifo where
  size := f.size
  queue := f.queue ++ bytes
  accepted := f.accepted ++ bytes
  taken := f.taken
  accepted_eq := by rw [f.accepted_eq, List.append_assoc]

def pop (f : Fifo) (n : Nat) : Fifo where
  size := f.size
  queue := f.queue.drop n
  accepted := f.accepted
  taken := f.taken ++ f.queue.take n
  accepted_eq := by rw [f.accepted_eq, List.append_assoc, List.take_append_drop]

def free (f : Fifo) : Int := f.size - 1 - f.queue.length

inductive Step (f : Fifo) : Op → Out → Fifo → Prop where
  | put (buff : List UInt8)
    : Step f (.put buff) (.put (min (buff.length : Int) f.free))
      (f.push (buff.take (min (buff.length : Int) f.free).toNat))
  | get (maxlen : Nat) : Step f (.get maxlen) (.get (f.queue.take maxlen)) (f.pop maxlen)
  | putbyte (ch : Int) : 0 < f.free → Step f (.putbyte ch) (.putbyte true) (f.push [toChar ch])
  | putbyteFull (ch : Int) : f.free = 0 → Step f (.putbyte ch) (.putbyte false) f
  | getbyte {c : UInt8} {rest : List UInt8} : f.queue = c :: rest → Step f .getbyte (.getbyte c.toNat) (f.pop 1)
  | getbyteEmpty : f.queue = [] → Step f .getbyte (.getbyte (-1)) f
  | peekbyte {c : UInt8} {rest : List UInt8} : f.queue = c :: rest → Step f .peekbyte (.peekbyte c.toNat) f
  | peekbyteEmpty : f.queue = [] → Step f .peekbyte (.peekbyte (-1)) f
  | makecontig (ok : Bool) : Step f .makecontig (.makecontig ok) f
  | extendBy (by' : Nat) (max : Option Nat) {size : Int} : f.size < size →
    Step f (.extendBy by' max) (.extendBy 0) { f with size }
  | extendByFailed (by' : Nat) (max : Option Nat) {ret : Int} : ret ≠ 0 → Step f (.extendBy by' max) (.extendBy ret) f
  | readline {line rest : List UInt8} {t : UInt8} {maxlen : Nat} {minch : Int} :
    f.queue = line ++ t :: rest → isTerminator minch t = true →
    (∀ c ∈ line, isTerminator minch c = false) → line.length < maxlen - 1 →
    Step f (.readline maxlen minch) (.readline (line.length + 1) (line ++ [0])) (f.pop (line.length + 1))
  | readlineNone {maxlen : Nat} {minch : Int} {str : List UInt8} :
    (∀ c ∈ f.queue.take (maxlen - 1), isTerminator minch c = false) →
    Step f (.readline maxlen minch) (.readline 0 str) f

inductive Run (f₀ : Fifo) : List (Op × Out) → Fifo → Prop where
  | nil : Run f₀ [] f₀
  | snoc {events : List (Op × Out)} {f f' : Fifo} {op : Op} {out : Out} :
    Run f₀ events f → Step f op out f' → Run f₀ (events ++ [(op, out)]) f'

end Fifo

structure State where
  m : Int → UInt8
  mb : Buff

-- There is no result when `membuff_extend_by` does not return.
def State.step (r : Realloc) (fuel : Nat) (s : State) : Op → Option (Out × State)
  | .put buff =>
    let (written, m, mb) := membuffPut s.m s.mb buff
    some (.put written, { m, mb })
  | .get maxlen =>
    let (bytes, mb) := membuffGet s.m s.mb maxlen
    some (.get bytes, { s with mb })
  | .putbyte ch =>
    let (ok, m, mb) := membuffPutbyte s.m s.mb ch
    some (.putbyte ok, { m, mb })
  | .getbyte =>
    let (ret, mb) := membuffGetbyte s.m s.mb
    some (.getbyte ret, { s with mb })
  | .peekbyte => some (.peekbyte (membuffPeekbyte s.m s.mb), s)
  | .makecontig =>
    let (ok, m, mb) := membuffMakecontig s.m s.mb
    some (.makecontig ok, { m, mb })
  | .extendBy by' max =>
    (membuffExtendBy r fuel s.m s.mb by' (max.elim (-1) fun max => max)).map
      fun (ret, m, mb) => (.extendBy ret, { m, mb })
  | .readline maxlen minch =>
    let (ret, str, mb) := membuffReadline s.m s.mb maxlen minch
    some (.readline ret str, { s with mb })

inductive Run (r : Realloc) (s₀ : State) : List (Op × Out) → State → Prop where
  | nil : Run r s₀ [] s₀
  | snoc {events : List (Op × Out)} {s s' : State} {op : Op} {out : Out} {fuel : Nat} :
    Run r s₀ events s → s.step r fuel op = some (out, s') → Run r s₀ (events ++ [(op, out)]) s'
  | other {events : List (Op × Out)} {s : State} {m : Int → UInt8} :
    Run r s₀ events s → (∀ a, s.mb.start ≤ a → a < s.mb.stop → m a = s.m a) →
    Run r s₀ events { s with m }

structure Refines (s : State) (f : Fifo) : Prop where
  wf : s.mb.WF
  queue : s.mb.queue s.m = f.queue
  size : s.mb.stop - s.mb.start = f.size

section

variable (h : Refines s f)

include h

lemma Refines.free_eq : membuffFree s.mb = f.free := by
  rw [membuffFree_eq s.m h.wf, h.queue, h.size]
  rfl

lemma Refines.free_nonneg : 0 ≤ f.free := by
  have hlt := queue_length_lt (m := s.m) h.wf
  rw [h.queue, h.size] at hlt
  unfold Fifo.free
  omega

lemma getbyte_refines (hget : membuffGetbyte s.m s.mb = (ret, mb))
    : ∃ f', Fifo.Step f .getbyte (.getbyte ret) f' ∧ Fifo.Step f .peekbyte (.peekbyte ret) f
      ∧ Refines { s with mb } f' := by
  have ⟨hwf, hstart, hstop, hcases⟩ := membuffGetbyte_spec h.wf hget
  have hsize : mb.stop - mb.start = f.size := by
    rw [hstart, hstop, h.size]
  rw [h.queue] at hcases
  cases hcases with
  | inl hempty =>
    have ⟨hnil, hnil', hret⟩ := hempty
    rw [hret]
    refine ⟨f, .getbyteEmpty hnil, .peekbyteEmpty hnil, hwf, ?_, hsize⟩
    rw [hnil]
    exact hnil'
  | inr hsome =>
    have ⟨c, hqueue, hret⟩ := hsome
    rw [hret]
    refine ⟨f.pop 1, .getbyte hqueue, .peekbyte hqueue, hwf, ?_, hsize⟩
    change _ = f.queue.drop 1
    rw [hqueue]
    rfl

lemma extendBy_refines {by' : Nat} {max : Option Nat}
    (hext : membuffExtendBy r fuel s.m s.mb by' (max.elim (-1) fun max => max) = some (ret, m, mb))
    : ∃ f', Fifo.Step f (.extendBy by' max) (.extendBy ret) f' ∧ Refines { m, mb } f' := by
  have hmax : max.elim (-1) (fun max => (max : Int)) = -1 ∨ 0 ≤ max.elim (-1) fun max => (max : Int) := by
    cases max with
    | none => exact .inl rfl
    | some max =>
      right
      exact Int.natCast_nonneg max
  have ⟨hwf, hqueue, hgrown, hsame⟩ := membuffExtendBy_spec h.wf hmax hext
  by_cases hret : ret = 0
  . have hlt := hgrown hret
    rw [h.size] at hlt
    rw [hret]
    refine ⟨{ f with size := mb.stop - mb.start }, .extendBy by' max hlt, hwf, ?_, rfl⟩
    exact hqueue.trans h.queue
  have ⟨hm, hmb⟩ := hsame hret
  refine ⟨f, .extendByFailed by' max hret, ?_⟩
  rw [hm, hmb]
  exact h

lemma readline_refines {maxlen : Nat} {minch : Int}
    {str : List UInt8} (hread : membuffReadline s.m s.mb maxlen minch = (ret, str, mb))
    : ∃ f', Fifo.Step f (.readline maxlen minch) (.readline ret str) f' ∧ Refines { s with mb } f' := by
  have hleft : ((maxlen : Int) - 1).toNat = maxlen - 1 := by omega
  cases membuffReadline_spec h.wf hread with
  | inl hfound =>
    have ⟨line, t, hqueue, ht, hline, hlen, hret, hstr, hwf, hstart, hstop⟩ := hfound
    rw [h.queue] at hqueue
    rw [hleft] at hlen
    rw [hret, hstr]
    refine ⟨f.pop (line.length + 1), .readline hqueue ht hline hlen, hwf, ?_, ?_⟩
    . change _ = f.queue.drop (line.length + 1)
      rw [hqueue]
      simp
    . change mb.stop - mb.start = f.size
      rw [hstart, hstop, h.size]
  | inr hnone =>
    have ⟨hnone, hret, hmb⟩ := hnone
    rw [h.queue, hleft] at hnone
    rw [hret, hmb]
    exact ⟨f, .readlineNone hnone, h⟩

end

lemma step_refines {s' : State} (h : Refines s f) {op : Op} {out : Out} (hstep : s.step r fuel op = some (out, s'))
    : ∃ f', Fifo.Step f op out f' ∧ Refines s' f' := by
  cases op with
  | put buff =>
    rcases hput : membuffPut s.m s.mb buff with ⟨written, m, mb⟩
    have ⟨hwf, hstart, hstop, hwritten, hqueue⟩ := membuffPut_spec h.wf hput
    rw [State.step, hput] at hstep
    cases hstep
    rw [h.free_eq] at hwritten
    rw [h.queue] at hqueue
    rw [hwritten] at hqueue ⊢
    refine ⟨_, .put buff, hwf, hqueue, ?_⟩
    change mb.stop - mb.start = f.size
    rw [hstart, hstop, h.size]
  | get maxlen =>
    rcases hget : membuffGet s.m s.mb maxlen with ⟨bytes, mb⟩
    have ⟨hwf, hstart, hstop, hqueue, hlen⟩ := membuffGet_spec h.wf (by omega) hget
    rw [State.step, hget] at hstep
    cases hstep
    rw [h.queue] at hqueue hlen
    have hbytes : bytes = f.queue.take maxlen := by
      rw [List.take_eq_take_min, show min maxlen f.queue.length = bytes.length by omega, hqueue]
      simp
    have hrest : mb.queue s.m = f.queue.drop maxlen := by
      have hboth : f.queue.take maxlen ++ mb.queue s.m = f.queue.take maxlen ++ f.queue.drop maxlen := by
        rw [List.take_append_drop, ← hbytes]
        exact hqueue.symm
      exact List.append_cancel_left hboth
    rw [hbytes]
    refine ⟨_, .get maxlen, hwf, hrest, ?_⟩
    change mb.stop - mb.start = f.size
    rw [hstart, hstop, h.size]
  | putbyte ch =>
    rcases hput : membuffPutbyte s.m s.mb ch with ⟨ok, m, mb⟩
    have ⟨hwf, hstart, hstop, hok, hqueue⟩ := membuffPutbyte_spec h.wf hput
    rw [State.step, hput] at hstep
    cases hstep
    have hsize : mb.stop - mb.start = f.size := by
      rw [hstart, hstop, h.size]
    rw [h.free_eq] at hok
    rw [h.queue] at hqueue
    cases ok with
    | true => exact ⟨_, .putbyte ch (hok.mp rfl), hwf, hqueue, hsize⟩
    | false =>
      have hnonneg := h.free_nonneg
      have hfull : f.free = 0 := by
        simp only [Bool.false_eq_true, false_iff] at hok
        omega
      exact ⟨f, .putbyteFull ch hfull, hwf, hqueue, hsize⟩
  | getbyte =>
    rcases hget : membuffGetbyte s.m s.mb with ⟨ret, mb⟩
    have ⟨f', hget', _, hrefines⟩ := getbyte_refines h hget
    rw [State.step, hget] at hstep
    cases hstep
    exact ⟨f', hget', hrefines⟩
  | peekbyte =>
    rcases hget : membuffGetbyte s.m s.mb with ⟨ret, mb⟩
    have ⟨_, _, hpeek, _⟩ := getbyte_refines h hget
    rw [State.step, membuffPeekbyte_eq, hget] at hstep
    cases hstep
    exact ⟨f, hpeek, h⟩
  | makecontig =>
    rcases hcontig : membuffMakecontig s.m s.mb with ⟨ok, m, mb⟩
    have ⟨hwf, hstart, hstop, hqueue⟩ := membuffMakecontig_spec h.wf hcontig
    rw [State.step, hcontig] at hstep
    cases hstep
    refine ⟨f, .makecontig ok, hwf, hqueue.trans h.queue, ?_⟩
    rw [hstart, hstop, h.size]
  | extendBy by' max =>
    rw [State.step, Option.map_eq_some_iff] at hstep
    have ⟨⟨ret, m, mb⟩, hext, heq⟩ := hstep
    cases heq
    exact extendBy_refines h hext
  | readline maxlen minch =>
    rcases hread : membuffReadline s.m s.mb maxlen minch with ⟨ret, str, mb⟩
    rw [State.step, hread] at hstep
    cases hstep
    exact readline_refines h hread

lemma Refines.other (h : Refines s f)
    (hm : ∀ a, s.mb.start ≤ a → a < s.mb.stop → m a = s.m a) : Refines { s with m } f := by
  have ⟨_, _, _, _, _, _⟩ := h.wf
  have hload {a : Int} {n : Nat} (h1 : s.mb.start ≤ a) (h2 : a + n ≤ s.mb.stop) : load m a n = load s.m a n := by
    apply load_congr
    intro i hi
    apply hm
    . omega
    . omega
  refine ⟨h.wf, ?_, h.size⟩
  rw [← h.queue]
  dsimp only
  by_cases hle : s.mb.tail ≤ s.mb.head
  . rw [queue_of_le hle, queue_of_le hle, hload (by omega) (by omega)]
  . rw [queue_of_lt (by omega), queue_of_lt (by omega), hload (by omega) (by omega), hload (by omega) (by omega)]

lemma run_refines {s₀ : State} {f₀ : Fifo} {events : List (Op × Out)}
    (h0 : Refines s₀ f₀) (h : Run r s₀ events s) : ∃ f, Fifo.Run f₀ events f ∧ Refines s f := by
  induction h with
  | nil => exact ⟨f₀, .nil, h0⟩
  | snoc _ hstep ih =>
    have ⟨f, hrun, hrefines⟩ := ih
    have ⟨f', hstep', hrefines'⟩ := step_refines hrefines hstep
    exact ⟨f', hrun.snoc hstep', hrefines'⟩
  | other _ hm ih =>
    have ⟨f, hrun, hrefines⟩ := ih
    exact ⟨f, hrun, hrefines.other hm⟩

lemma init_refines (m : Int → UInt8) {buff size : Int} (hbuff : buff ≠ 0) (hsize : 1 ≤ size)
    (hlt : size < 2 ^ 31) : Refines { m, mb := membuffInit buff size } (.empty size) := by
  refine ⟨?_, ?_, ?_⟩
  . constructor <;> dsimp only [membuffInit, membuffPurge] <;> omega
  . rw [queue_of_le (by dsimp only [membuffInit, membuffPurge]; omega)]
    simp [membuffInit, membuffPurge, load, Fifo.empty]
  . dsimp only [membuffInit, membuffPurge, Fifo.empty]
    omega

theorem membuff_refines_fifo (r : Realloc) (m : Int → UInt8) (buff size : Int) (hbuff : buff ≠ 0)
    (hsize : 1 ≤ size) (hlt : size < 2 ^ 31) (events : List (Op × Out)) (s : State)
    (h : Run r { m, mb := membuffInit buff size } events s)
    : ∃ f : Fifo, Fifo.Run (.empty size) events f ∧ membuffSize s.mb = f.size
      ∧ membuffAvail s.mb = f.queue.length ∧ membuffFree s.mb = f.size - 1 - f.queue.length
      ∧ s.mb.queue s.m = f.queue := by
  have ⟨f, hrun, hrefines⟩ := run_refines (init_refines m hbuff hsize hlt) h
  refine ⟨f, hrun, hrefines.size, ?_, hrefines.free_eq, hrefines.queue⟩
  rw [membuffAvail_eq s.m hrefines.wf, hrefines.queue]

namespace Sample

def memory : Int → UInt8 := fun _ => 0

-- The memory behind the buffer is free.
def realloc : Realloc where
  realloc m ptr _ _ := if ptr = 0 then none else some (ptr, m)
  ne_null := by
    intro m ptr old size ptr' m' h
    grind
  keeps := by
    intro m ptr old size ptr' m' h
    grind

-- A buffer of four bytes that holds the line `a`.
def line : Option (Out × State) := State.step realloc 0 { m := memory, mb := membuffInit 16 4 } (.put [97, 10])

def steps (s : State) : List Op → Option (List (Op × Out) × State)
  | [] => some ([], s)
  | op :: ops => do
    let (out, s) ← s.step realloc 8 op
    let (events, s) ← steps s ops
    some ((op, out) :: events, s)

lemma steps_run {ops : List Op} {before events : List (Op × Out)} {s₀ s s' : State} (h : Run realloc s₀ before s)
    (hsteps : steps s ops = some (events, s')) : Run realloc s₀ (before ++ events) s' := by
  induction ops generalizing before events s with
  | nil =>
    simp only [steps, Option.some.injEq, Prod.mk.injEq] at hsteps
    rw [← hsteps.1, ← hsteps.2, List.append_nil]
    exact h
  | cons op ops ih =>
    simp only [steps, Option.bind_eq_bind, Option.bind_eq_some_iff, Option.some.injEq, Prod.mk.injEq] at hsteps
    obtain ⟨⟨out, s₁⟩, hstep, ⟨rest, s₂⟩, hrest, rfl, rfl⟩ := hsteps
    rw [List.append_cons]
    exact ih (h.snoc hstep) hrest

def start : State := { m := memory, mb := membuffInit 16 8 }

-- The second `put` wraps around, and the buffer is extended before it is made contiguous.
def wrapping : List Op :=
  [.put [97, 98, 99, 100, 101, 102], .get 5, .put [10, 103, 104], .extendBy 4 none, .putbyte 105, .makecontig,
    .readline 8 0]

end Sample

open Sample

theorem membuff_refines_fifo_wrapping
    : ∃ events s, Sample.steps Sample.start Sample.wrapping = some (events, s)
      ∧ s.mb.queue s.m = [103, 104, 105] ∧ membuffSize s.mb = 16
      ∧ ∃ f : Fifo, Fifo.Run (.empty 8) events f ∧ s.mb.queue s.m = f.queue := by
  have hres : (steps start wrapping).map (fun res => (res.2.mb.queue res.2.m, membuffSize res.2.mb))
      = some ([103, 104, 105], 16) := by
    decide +kernel
  obtain ⟨⟨events, s⟩, hsteps, hlast⟩ := Option.map_eq_some_iff.mp hres
  have ⟨f, hfifo, _, _, _, hqueue⟩ := membuff_refines_fifo realloc memory 16 8 (by omega) (by omega) (by omega) _ s
    (steps_run .nil hsteps)
  exact ⟨events, s, hsteps, congrArg Prod.fst hlast, congrArg Prod.snd hlast, f, hfifo, hqueue⟩

-- The terminator of the line is not among the bytes that are handed out.
theorem not_delivers_terminator
    : (Sample.line.map fun res => (res.2.mb.queue res.2.m, (membuffReadline res.2.m res.2.mb 4 0).2.1))
      = some ([97, 10], [97, 0]) := by
  decide +kernel

end UBoot.Membuff
