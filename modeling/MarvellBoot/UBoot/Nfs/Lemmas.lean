import MarvellBoot.UBoot.Hashtable.Lemmas.Parse
import MarvellBoot.UBoot.Nfs.Impl

namespace UBoot.Nfs

open Mem Size Hashtable List

namespace Client

variable {s : Client} {pkt : Nat → UInt8} {dest len : Nat}

lemma replyTo_stale (h : word pkt 0 < s.rpcId) (handle : Int × Client)
    : s.replyTo pkt len handle = if rpcSize < len then none else some (-124, s) := by
  rw [replyTo, if_neg (Nat.not_lt_of_gt h), if_pos h]

lemma nfsState_goOn (state : NfsState) : (s.goOn state).nfsState = state := by
  unfold goOn nfsSend
  cases state with
  | umountReq =>
    dsimp only
    split
    . rfl
    . rfl
  | _ => rfl

theorem nfsHandler_stale_iff (h : word pkt 0 < s.rpcId)
    : s.nfsHandler pkt dest len = some s ↔ dest ≠ s.nfsOurPort ∨ s.nfsState ≠ .readReq ∧ len ≤ rpcSize := by
  unfold nfsHandler
  by_cases hdest : dest ≠ s.nfsOurPort
  . rw [if_pos hdest]
    exact ⟨fun _ => .inl hdest, fun _ => rfl⟩
  rw [if_neg hdest, or_iff_right hdest]
  cases hstate : s.nfsState with
  | readReq =>
    simp only [nfsReadReply, replyTo_stale h]
    rw [if_neg (Nat.lt_irrefl _), Option.bind_eq_bind, Option.bind_some]
    dsimp only
    rw [if_neg (by decide), if_neg (by decide)]
    constructor
    . intro heq
      have hnext := congrArg nfsState (Option.some.inj heq)
      rw [nfsState_goOn, hstate] at hnext
      contradiction
    . intro hand
      exact absurd rfl hand.1
  | _ =>
    simp only [rpcLookupReply, nfsMountReply, nfsUmountallReply, nfsLookupReply, nfsReadlinkReply, replyTo_stale h]
    by_cases hlen : rpcSize < len
    . simp [hlen]
    . simp [hlen, Nat.not_lt.mp hlen]

def readingClient : Client := { (default : Client) with nfsState := .readReq, rpcId := 2, fsMounted := true }

theorem nfsHandler_stale_lookup
    : nfsHandler { readingClient with nfsState := .lookupReq } (fun _ => 0) 0 512
      = some { readingClient with nfsState := .lookupReq } :=
  (nfsHandler_stale_iff (by decide)).mpr (.inr (by decide))

theorem not_stale_reading : nfsHandler readingClient (fun _ => 0) 0 512 ≠ some readingClient := by
  intro h
  have hsent : (nfsHandler readingClient (fun _ => 0) 0 512).map sent = some [.umountall] := by decide +kernel
  rw [h] at hsent
  contradiction

end Client

variable {name pre : CStr} (fname : Int) {a : Int}

namespace Path

def Inside (w : Int × Nat) : Prop := 0 ≤ w.1 ∧ w.1 + w.2 ≤ nfsPathBuffSize

structure Ok (p : Path) (path : CStr) : Prop where
  inside : ∀ w ∈ p.writes, Inside w
  joined : cstr p.m 0 ++ slash :: cstr p.m p.nfsFilename = path

def Splits (path : CStr) : Prop := slash ∈ path ∧ path.length < nfsPathBuffSize ∧ 0 ∉ path

def dirOf (path : CStr) : CStr := (path.reverse.dropWhile (· ≠ slash)).tail.reverse

-- A relative target is looked up in the directory of the link.
def linkPath (path : CStr) (l : Link) : CStr := if l.data 0 ≠ slash then dirOf path ++ slash :: l.target else l.target

def paths (p : Path) : List Link → Option (List Path)
  | [] => some [p]
  | l :: links => (p.follow l).bind fun q => (q.paths links).map (p :: ·)

def requestedPaths (path : CStr) : List Link → List CStr
  | [] => [path]
  | l :: links => path :: requestedPaths (linkPath path l) links

variable {p : Path} {m : Int → UInt8} {path dir file : CStr} {l : Link}

lemma basenameLoop_add {n : Nat} (h : Text m n file) (hno : slash ∉ file)
    : basenameLoop m (n + file.length) = basenameLoop m n := by
  induction file using reverseRecOn with
  | nil => rfl
  | append_singleton file c ih =>
    rw [mem_append, mem_singleton, not_or] at hno
    rw [text_append, text_cons] at h
    have hc : m (n + file.length : Nat) ≠ slash := by
      rw [Nat.cast_add, h.2.1]
      exact Ne.symm hno.2
    rw [length_append, length_singleton, ← add_assoc, basenameLoop, if_neg hc, ih h.1 hno.1]

lemma exists_append (h : slash ∈ path) : ∃ dir file, path = dir ++ slash :: file ∧ slash ∉ file := by
  have ⟨file, dir, heq, hno⟩ := eq_append_cons_of_mem (mem_reverse.mpr h)
  refine ⟨dir.reverse, file.reverse, ?_, by simpa using hno⟩
  rw [← reverse_reverse path, heq]
  simp

lemma dirOf_append (hno : slash ∉ file) : dirOf (dir ++ slash :: file) = dir := by
  have hall : ∀ c ∈ file.reverse, (decide (c ≠ slash)) = true := by
    intro c hc
    rw [decide_eq_true_eq]
    rintro rfl
    exact hno (mem_reverse.mp hc)
  rw [dirOf, reverse_append, reverse_cons, append_assoc, dropWhile_append_of_pos hall]
  simp

lemma cstr_text (h : Text m a (path ++ [0])) (hno : 0 ∉ path) (hlen : path.length < nfsPathBuffSize)
    : cstr m a = path := by
  apply strAt_text h
  . intro c hc hzero
    exact hno (hzero ▸ hc)
  . omega

lemma split_append (ht : Text p.m 0 (dir ++ slash :: file ++ [0])) (hno : 0 ∉ dir ++ slash :: file)
    (hlen : (dir ++ slash :: file).length < nfsPathBuffSize) (hfile : slash ∉ file)
    : p.split.writes = p.writes ++ [((dir.length : Int), 1)] ∧ Text p.split.m 0 (dir ++ [0])
      ∧ cstr p.split.m 0 ++ slash :: cstr p.split.m p.split.nfsFilename = dir ++ slash :: file := by
  have hcstr := cstr_text ht hno hlen
  rw [append_assoc, text_append, cons_append, text_cons, zero_add] at ht
  have hbase : basename p.m = dir.length + 1 := by
    rw [basename, hcstr, length_append, length_cons, add_comm file.length, ← add_assoc,
      basenameLoop_add (text_append.mp ht.2.2).1 hfile, basenameLoop, if_pos ht.2.1]
  have hm : p.split.m = Mem.store p.m dir.length [0] := by
    unfold split dirname store
    rw [hbase, Int.add_sub_cancel]
  have hdir : Text p.split.m 0 (dir ++ [0]) := by
    have htext := @Text.append_store _ _ _ [0] ht.1
    rw [zero_add] at htext
    rw [hm]
    exact htext
  have hname : Text p.split.m (dir.length + 1) (file ++ [0]) := by
    rw [hm]
    exact ht.2.2.store (.inl (le_refl _))
  simp only [mem_append, mem_cons, not_or] at hno
  rw [length_append, length_cons] at hlen
  refine ⟨?_, hdir, ?_⟩
  . unfold split dirname store
    rw [hbase, Int.add_sub_cancel, length_singleton]
  . have hfilename : p.split.nfsFilename = dir.length + 1 := hbase
    rw [hfilename, cstr_text hdir hno.1 (by omega), cstr_text hname hno.2.2 (by omega)]

lemma mem_split_of_not_mem (ht : Text p.m 0 (path ++ [0])) (hno : 0 ∉ path) (hlen : path.length < nfsPathBuffSize)
    (hmem : slash ∉ path) : (-2, 1) ∈ p.split.writes := by
  have hbase : basename p.m = -1 := by
    have hloop := basenameLoop_add (n := 0) (text_append.mp ht).1 hmem
    rw [zero_add] at hloop
    rw [basename, cstr_text ht hno hlen, hloop, basenameLoop]
  unfold split dirname store
  rw [hbase]
  exact mem_append_right _ mem_cons_self

lemma exists_cstr (h : Text m a (path ++ [0])) : ∃ c, 0 ∉ c ∧ c.length ≤ path.length ∧ Text m a (c ++ [0]) := by
  by_cases hmem : 0 ∈ path
  . have ⟨c, rest, heq, hno⟩ := eq_append_cons_of_mem hmem
    rw [heq, append_assoc, cons_append, text_append, text_cons] at h
    refine ⟨c, hno, ?_, text_append.mpr ⟨h.1, text_cons.mpr ⟨h.2.1, rfl⟩⟩⟩
    rw [heq, length_append]
    omega
  . exact ⟨path, hmem, le_rfl, h⟩

lemma splits_of_ok (ht : Text p.m 0 (path ++ [0])) (hlen : path.length < nfsPathBuffSize) (hok : Ok p.split path)
    : Splits path := by
  have ⟨c, hno, hle, hc⟩ := exists_cstr ht
  by_cases hmem : slash ∈ c
  . have ⟨dir, file, heq, hfile⟩ := exists_append hmem
    rw [heq] at hc hno hle hmem
    have ⟨_, _, hjoined⟩ := split_append hc hno (by omega) hfile
    rw [hok.joined] at hjoined
    rw [hjoined] at hlen ⊢
    exact ⟨hmem, hlen, hno⟩
  . have hinside := hok.inside _ (mem_split_of_not_mem hc hno (by omega) hmem)
    exact absurd hinside.1 (by decide)

structure At (p : Path) (path : CStr) : Prop where
  ok : Ok p path
  splits : Splits path
  text : Text p.m 0 (dirOf path ++ [0])

lemma at_split (ht : Text p.m 0 (path ++ [0])) (hin : ∀ w ∈ p.writes, Inside w) (hs : Splits path)
    : At p.split path := by
  have ⟨dir, file, heq, hfile⟩ := exists_append hs.1
  subst heq
  have ⟨hwrites, hdir, hjoined⟩ := split_append ht hs.2.2 hs.2.1 hfile
  refine ⟨⟨?_, hjoined⟩, hs, ?_⟩
  . intro w hw
    rw [hwrites, mem_append, mem_singleton] at hw
    cases hw with
    | inl hw => exact hin w hw
    | inr hw =>
      have hlen := hs.2.1
      rw [length_append, length_cons] at hlen
      subst hw
      unfold Inside
      omega
  . rw [dirOf_append hfile]
    exact hdir

lemma start_ok (hok : Ok (start ⟨m, fname, []⟩ name) name) : Splits name := by
  have hinside := hok.inside (0, (name ++ [0]).length) (mem_append_left _ mem_cons_self)
  exact splits_of_ok text_store_self (by have := hinside.2; simp at this; omega) hok

lemma at_start (hs : Splits name) : At (start ⟨m, fname, []⟩ name) name := by
  apply at_split text_store_self _ hs
  intro w hw
  have hlen := hs.2.1
  rw [mem_singleton.mp hw]
  unfold Inside
  rw [length_append, length_singleton]
  omega

lemma Link.length_target (h : l.target.length < 2 ^ 31) : (l.target.length : Int) = toInt l.rlen := by
  unfold Link.target ofInt at *
  rw [Bytes.length_load] at *
  have hlt := toInt_lt l.rlen
  have hge : -2 ^ 31 ≤ toInt l.rlen := by
    have := @Int.le_bmod l.rlen (2 ^ 32) (by omega)
    unfold toInt
    omega
  omega

lemma copyTarget_inside_iff (hin : ∀ w ∈ p.writes, Inside w)
    : (∀ w ∈ (p.copyTarget pre.length l).writes, Inside w) ↔ (pre ++ l.target).length < nfsPathBuffSize := by
  unfold copyTarget
  simp only [store, mem_append, mem_singleton, length_append, length_cons, length_nil]
  unfold nfsPathBuffSize
  constructor
  . intro h
    have ⟨_, htarget⟩ := h (_, _) (.inl (.inr rfl))
    have ⟨_, hend⟩ := h (_, _) (.inr rfl)
    unfold nfsPathBuffSize at *
    have := Link.length_target (l := l) (by omega)
    omega
  intro hlen w hw
  have := Link.length_target (l := l) (by omega)
  obtain (hw | hw) | hw := hw
  . exact hin w hw
  all_goals
    subst hw
    unfold Inside nfsPathBuffSize
    omega

lemma copyTarget_text (ht : Text p.m 0 pre) (hlen : (pre ++ l.target).length < nfsPathBuffSize)
    : Text (p.copyTarget pre.length l).m 0 (pre ++ l.target ++ [0]) := by
  have htext := @Text.append_store _ _ _ [0] (@Text.append_store _ _ _ l.target ht)
  rw [length_append] at hlen htext
  unfold nfsPathBuffSize at hlen
  rw [Nat.cast_add, Int.zero_add, Int.zero_add, Link.length_target (by omega)] at htext
  exact htext

lemma link_eq (hat : At p path) (l : Link)
    : ∃ (q : Path) (pre : CStr), (∀ w ∈ q.writes, Inside w) ∧ Text q.m 0 pre ∧ p.link l = q.copyTarget pre.length l
      ∧ linkPath path l = pre ++ l.target := by
  unfold link linkPath
  by_cases h : l.data 0 ≠ slash
  . rw [if_pos h, if_pos h]
    have ⟨hslash, hlen, hno⟩ := hat.splits
    have ⟨dir, file, heq, hfile⟩ := exists_append hslash
    have htext := hat.text
    rw [heq, dirOf_append hfile] at htext
    rw [heq, dirOf_append hfile]
    simp only [heq, length_append, length_cons] at hlen
    simp only [heq, mem_append, mem_cons, not_or] at hno
    have hdir : cstr p.m 0 = dir := cstr_text htext hno.1 (by omega)
    have hstrcat := @Text.append_store _ _ _ [slash, 0] (text_append.mp htext).1
    rw [zero_add, ← singleton_append, ← append_assoc] at hstrcat
    rw [hdir]
    refine ⟨p.store dir.length [slash, 0], dir ++ [slash], ?_, (text_append.mp hstrcat).1, ?_, by simp⟩
    . intro w hw
      rw [store, mem_append, mem_singleton] at hw
      cases hw with
      | inl hw => exact hat.ok.inside w hw
      | inr hw =>
        subst hw
        unfold Inside nfsPathBuffSize at *
        simp
        omega
    have hpath : cstr (p.store dir.length [slash, 0]).m 0 = dir ++ [slash] := by
      apply cstr_text hstrcat
      . simp [hno.1, hno.2.1]
      . simp
        omega
    dsimp only
    rw [hpath]
  . rw [if_neg h, if_neg h]
    exact ⟨p, [], hat.ok.inside, rfl, rfl, (nil_append _).symm⟩

lemma split_ok (hat : At p path) (hok : Ok (p.link l).split (linkPath path l)) : Splits (linkPath path l) := by
  have ⟨q, pre, hin, ht, hlink, hpath⟩ := link_eq hat l
  rw [hlink, hpath] at hok
  have hlen := (copyTarget_inside_iff hin).mp fun w hw => hok.inside w (mem_append_left _ hw)
  rw [hpath]
  exact splits_of_ok (copyTarget_text ht hlen) hlen hok

lemma at_split_link (hat : At p path) (hs : Splits (linkPath path l)) : At (p.link l).split (linkPath path l) := by
  have ⟨q, pre, hin, ht, hlink, hpath⟩ := link_eq hat l
  rw [hpath] at hs ⊢
  rw [hlink]
  exact at_split (copyTarget_text ht hs.2.1) ((copyTarget_inside_iff hin).mpr hs.2.1) hs

lemma exists_paths_cons {R : Path → CStr → Prop} {links : List Link} {rest : List CStr}
    : (∃ ps, p.paths (l :: links) = some ps ∧ List.Forall₂ R ps (path :: rest))
      ↔ R p path ∧ l.len ≤ rpcSize ∧ ∃ ps, (p.link l).split.paths links = some ps ∧ List.Forall₂ R ps rest := by
  rw [paths, follow]
  by_cases hlen : rpcSize < l.len
  . simp [hlen]
  rw [if_neg hlen, Option.bind_some, and_iff_right (Nat.not_lt.mp hlen)]
  constructor
  . rintro ⟨ps, hps, hall⟩
    obtain ⟨qs, hqs, rfl⟩ := Option.map_eq_some_iff.mp hps
    rw [forall₂_cons] at hall
    exact ⟨hall.1, qs, hqs, hall.2⟩
  . rintro ⟨hp, qs, hqs, hall⟩
    exact ⟨p :: qs, by rw [hqs, Option.map_some], .cons hp hall⟩

lemma forall_paths_iff {links : List Link} (hok : Ok p path → Splits path) (hat : Splits path → At p path)
    : (∃ ps, p.paths links = some ps ∧ List.Forall₂ Ok ps (requestedPaths path links))
      ↔ (∀ q ∈ requestedPaths path links, Splits q) ∧ ∀ l ∈ links, l.len ≤ rpcSize := by
  induction links generalizing p path with
  | nil =>
    rw [paths, requestedPaths, forall_mem_singleton, and_iff_left (forall_mem_nil _)]
    constructor
    . rintro ⟨ps, hps, hall⟩
      rw [← Option.some.inj hps, forall₂_cons] at hall
      exact hok hall.1
    . exact fun hs => ⟨[p], rfl, .cons (hat hs).ok .nil⟩
  | cons l links ih =>
    rw [requestedPaths, exists_paths_cons, forall_mem_cons, forall_mem_cons]
    constructor
    . rintro ⟨h, hlen, hrest⟩
      have hs := hok h
      have ⟨hall, hlens⟩ := (ih (split_ok (hat hs)) (at_split_link (hat hs))).mp hrest
      exact ⟨⟨hs, hall⟩, hlen, hlens⟩
    . rintro ⟨⟨hs, hall⟩, hlen, hlens⟩
      exact ⟨(hat hs).ok, hlen, (ih (split_ok (hat hs)) (at_split_link (hat hs))).mpr ⟨hall, hlens⟩⟩

theorem nfs_paths_ok_iff (m : Int → UInt8) (fname : Int) (netBootFileName : CStr) (netIp : List UInt8)
    (links : List Link)
    : (∃ ps, (start ⟨m, fname, []⟩ (requestedName netBootFileName netIp)).paths links = some ps
        ∧ List.Forall₂ Ok ps (requestedPaths (requestedName netBootFileName netIp) links))
      ↔ (∀ path ∈ requestedPaths (requestedName netBootFileName netIp) links, Splits path)
        ∧ ∀ l ∈ links, l.len ≤ rpcSize :=
  forall_paths_iff (start_ok fname) (at_start fname)

-- The name of the file is "a".
theorem not_paths_ok_noSlash
    : ¬∃ ps, (start ⟨fun _ => 0, 0, []⟩ (requestedName [0x61] [])).paths [] = some ps
      ∧ List.Forall₂ Ok ps (requestedPaths (requestedName [0x61] []) []) := by
  rintro ⟨ps, hps, h⟩
  rw [← Option.some.inj hps] at h
  cases h with
  | cons h _ => exact absurd (h.inside (-2, 1) (by decide +kernel)).1 (by decide)

end Path
end UBoot.Nfs
