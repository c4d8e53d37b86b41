import MarvellBoot.UBoot.EnvAttr.Lemmas
import MarvellBoot.UBoot.EnvFlags.Lemmas.Lookup

/-!
The lookup in an attribute list with `CONFIG_REGEX`. The callback is the one of `EnvFlags`.
-/

namespace UBoot.EnvAttr.Regex

open Hashtable EnvFlags List

def enoent : Int := 2

variable (slre : CStr → CStr → Option Bool)

-- There is no result when `NULL` is dereferenced.
def envAttrLookup (attrList : Option CStr) (name : CStr) (attributes : Bool) : Option (Except Int CStr) :=
  if attributes = false then
    some (.error (-einval))
  else
    match attrList with
    | none => some (.error (-einval))
    | some attrList =>
      match envAttrWalk (regexCallback slre name) (some attrList) none with
      | none => none
      | some (retval, found) =>
        if retval ≠ 0 then
          some (.error retval)
        else
          match found with
          | none => some (.error (-enoent))
          | some attributes => some (.ok attributes)

def lastMatching (name : CStr) (found : List (CStr × Option CStr)) : Option (Option CStr) :=
  (found.filter fun entry => slre entry.1 name = some true).getLast?.map Prod.snd

variable {slre}

lemma lastAttr_eq_getLast? (entries : List EnvFlags.AttrEntry)
    : lastAttr entries none = (entries.getLast?.map Prod.snd).join := by
  cases entries using List.reverseRecOn with
  | nil => rfl
  | append_singleton entries entry => simp [lastAttr]

lemma lastMatching_isSome {name : CStr} {found : List (CStr × Option CStr)} {attributes : Option CStr}
    (h : ∀ entry ∈ found, Described slre name entry) (hlast : lastMatching slre name found = some attributes)
    : attributes.isSome = true := by
  have ⟨entry, hentry, hattr⟩ := Option.map_eq_some_iff.mp hlast
  have ⟨hmem, hmatch⟩ := mem_filter.mp (mem_of_getLast? hentry)
  rw [← hattr]
  exact (h entry hmem).2 (by simpa using hmatch)

lemma retval_walkEntries {name : CStr} {entries : List (CStr × Option CStr)} {found res : Option CStr} {retval : Int}
    (h : walkEntries (regexCallback slre name) entries found = some (retval, res)) : retval = 0 ∨ retval = einval := by
  induction entries generalizing found with
  | nil =>
    cases h
    exact .inl rfl
  | cons entry entries ih =>
    simp only [walkEntries, regexCallback] at h
    cases hb : slre entry.1 name with
    | none =>
      rw [hb] at h
      cases h
      exact .inr rfl
    | some b =>
      cases b with
      | false => exact ih (by simpa [hb] using h)
      | true =>
        cases ha : entry.2 with
        | none => simp [hb, ha] at h
        | some a => exact ih (by simpa [hb, ha] using h)

theorem regex_lookup_agrees_iff (slre : CStr → CStr → Option Bool) (attrList name : CStr)
    : ∃ found, reported attrList = some (0, found)
      ∧ (envAttrLookup slre (some attrList) name true
          = some (match lastMatching slre name found with
              | none => .error (-enoent)
              | some attributes => .ok (attributes.getD []))
        ↔ ∀ entry ∈ found, Described slre name entry) := by
  have hreported : reported attrList = some (0, attrEntries attrList) := walkEntries_report _ _
  refine ⟨attrEntries attrList, hreported, ?_⟩
  unfold envAttrLookup envAttrWalk
  dsimp only
  rw [if_neg (by decide)]
  generalize attrEntries attrList = found
  constructor
  . intro h
    cases hwalk : walkEntries (regexCallback slre name) found none with
    | none =>
      rw [hwalk] at h
      contradiction
    | some res =>
      have hzero : res.1 = 0 := by
        refine (retval_walkEntries hwalk).resolve_right ?_
        intro herror
        rw [hwalk] at h
        dsimp only at h
        rw [herror, if_pos (by decide)] at h
        cases hlast : lastMatching slre name found with
        | none => simp [hlast, einval, enoent] at h
        | some attributes => simp [hlast] at h
      exact (walkEntries_regexCallback_iff.mp (hwalk.trans (by rw [← hzero]))).1
  intro h
  rw [walkEntries_regexCallback_iff.mpr ⟨h, rfl⟩, lastAttr_eq_getLast?]
  change (if _ then _ else match (lastMatching slre name found).join with | none => _ | some a => _) = _
  rw [if_neg (by decide)]
  cases hlast : lastMatching slre name found with
  | none => rfl
  | some attributes =>
    obtain ⟨a, ha⟩ := Option.isSome_iff_exists.mp (lastMatching_isSome h hlast)
    rw [ha]
    rfl

-- The list "a" has no attributes for the name "a".
theorem not_agrees_without_attributes
    : ¬∀ (slre : CStr → CStr → Option Bool) (attrList name : CStr), ∃ found, reported attrList = some (0, found)
      ∧ envAttrLookup slre (some attrList) name true
        = some (match lastMatching slre name found with
            | none => .error (-enoent)
            | some attributes => .ok (attributes.getD [])) := by
  intro h
  have ⟨_, _, hlookup⟩ := h (fun pattern name => some (pattern = name)) [0x61] [0x61]
  have hnull : envAttrLookup (fun pattern name => some (pattern = name)) (some [0x61]) [0x61] true = none := by decide
  rw [hnull] at hlookup
  contradiction

end UBoot.EnvAttr.Regex
