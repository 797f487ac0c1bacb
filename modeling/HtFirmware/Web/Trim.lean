import HtFirmware.Machinery.FirstReached
import HtFirmware.Machinery.Text
import Mathlib.Data.List.TakeDrop

/-!
# Web/Trim — what is taken off a path before a file is looked for

    /a/././/  ──▸  /a/./.  ⋯  ──▸  /a

`http_file_handler` takes a slash off the end of a path, or a slash with a dot, as long as there is one,
but never the slash of the root.  Either may uncover the other; at each end only one of them can be
taken off, so what is left is the first on one way (`FirstReached`) that ends in neither.
-/

open Machinery
open Relation (ReflTransGen)

namespace Web

/-! ## The loop -/

/-- The string in an array. -/
def stringIn (path : List Char) : CString := path.takeWhile (· ≠ '\x00')

/-- The loop of `http_file_handler`, over the array of a path and the length of its string. -/
def trimLoop (path : List Char) (length : ℕ) : List Char × ℕ :=
  if 0 < length then
    if 1 < length ∧ path[length - 1]? = some '/' then
      trimLoop (path.set (length - 1) '\x00') (length - 1)
    else if 2 ≤ length ∧ path[length - 2]? = some '/' ∧ path[length - 1]? = some '.' then
      trimLoop (path.set (length - 2) '\x00') (length - 2)
    else (path, length)
  else (path, length)
termination_by length
decreasing_by all_goals omega

/-- The array that is left, and the length. -/
def trim (path : List Char) : List Char × ℕ := trimLoop path (stringIn path).length

/-! ## What is taken off -/

/-- A component is removed from the end: a slash, or a slash with a dot. -/
inductive Removes : CString → CString → Prop where
  | slash (s : CString) : Removes (s ++ ['/']) s
  | dot (s : CString) : Removes (s ++ ['/', '.']) s

/-- The path does not end in a slash, unless it is one, and not in a slash with a dot. -/
structure Trimmed (s : CString) : Prop where
  slash : ['/'] <:+ s → s = ['/']
  dot : ¬ ['/', '.'] <:+ s

/-- **The longest of the prefixes that are left by removing components, and are trimmed.** -/
structure LongestTrimmed (s t : CString) : Prop where
  removed : ReflTransGen Removes s t
  trimmed : Trimmed t
  longest : ∀ u, ReflTransGen Removes s u → Trimmed u → u <+: t

theorem Removes.of_slash {s t : CString} (h : s = t ++ ['/']) : Removes s t := h ▸ .slash t

theorem Removes.of_dot {s t : CString} (h : s = t ++ ['/', '.']) : Removes s t := h ▸ .dot t

/-- Only one component can be removed. -/
theorem rightUnique_removes : Relator.RightUnique Removes := by
  intro s t u ht hu
  cases ht with
  | slash t =>
    generalize hs : t ++ ['/'] = s at hu
    cases hu with
    | slash u => exact (List.append_inj' hs rfl).1
    | dot u =>
      have hlast := congrArg List.getLast? hs
      simp at hlast
  | dot t =>
    generalize hs : t ++ ['/', '.'] = s at hu
    cases hu with
    | slash u =>
      have hlast := congrArg List.getLast? hs
      simp at hlast
    | dot u => exact (List.append_inj' hs rfl).1

/-- What is left is a prefix. -/
theorem prefix_of_removes {s t : CString} (h : ReflTransGen Removes s t) : t <+: s := by
  induction h with
  | refl => exact List.prefix_rfl
  | tail _ hlast ih =>
    cases hlast with
    | slash t => exact (List.prefix_append _ _).trans ih
    | dot t => exact (List.prefix_append _ _).trans ih

theorem longestTrimmed_of_first {s t : CString} (h : FirstReached Removes Trimmed s t) :
    LongestTrimmed s t :=
  ⟨h.reached, h.holds, fun u hu htrimmed => prefix_of_removes (h.first u hu htrimmed)⟩

/-! ## What the loop does -/

section Loop

variable {path : List Char} {s t : CString} {c : Char}

theorem getElem?_stringIn (path : List Char) {i : ℕ} (hi : i < (stringIn path).length) :
    path[i]? = (stringIn path)[i]? := by
  obtain ⟨rest, hrest⟩ : stringIn path <+: path := List.takeWhile_prefix _
  conv_lhs => rw [← hrest]
  exact List.getElem?_append_left hi

/-- A null in it cuts the string. -/
theorem stringIn_set (path : List Char) (k : ℕ) :
    stringIn (path.set k '\x00') = (stringIn path).take k := takeWhile_ne_set path k

theorem eq_concat_slash (h : s[s.length - 1]? = some '/') : s = s.take (s.length - 1) ++ ['/'] := by
  obtain ⟨hlt, hc⟩ := List.getElem?_eq_some_iff.mp h
  have hend : s.drop (s.length - 1 + 1) = [] := List.drop_eq_nil_of_le (by omega)
  have hdrop : s.drop (s.length - 1) = ['/'] := by
    rw [List.drop_eq_getElem_cons hlt, hc, hend]
  rw [← hdrop, List.take_append_drop]

theorem eq_concat_dot (hlong : 2 ≤ s.length) (hslash : s[s.length - 2]? = some '/')
    (hdot : s[s.length - 1]? = some '.') : s = s.take (s.length - 2) ++ ['/', '.'] := by
  obtain ⟨hlt, hc⟩ := List.getElem?_eq_some_iff.mp hslash
  obtain ⟨hlt', hc'⟩ := List.getElem?_eq_some_iff.mp hdot
  have hnext : s.length - 2 + 1 = s.length - 1 := by omega
  have hend : s.drop (s.length - 1 + 1) = [] := List.drop_eq_nil_of_le (by omega)
  have hdrop : s.drop (s.length - 2) = ['/', '.'] := by
    rw [List.drop_eq_getElem_cons hlt, hc, hnext, List.drop_eq_getElem_cons hlt', hc', hend]
  rw [← hdrop, List.take_append_drop]

/-- What the loop stops at is trimmed. -/
theorem trimmed_of_not (hslash : ¬ (1 < s.length ∧ s[s.length - 1]? = some '/'))
    (hdot : ¬ (2 ≤ s.length ∧ s[s.length - 2]? = some '/' ∧ s[s.length - 1]? = some '.')) :
    Trimmed s where
  slash := by
    rintro ⟨t, rfl⟩
    cases t with
    | nil => rfl
    | cons a t => exact absurd ⟨by simp, by simp⟩ hslash
  dot := by
    rintro ⟨t, rfl⟩
    exact hdot ⟨by simp, by simp, by simp⟩

/-- **The loop goes to the first that is trimmed.** -/
theorem firstReached_trimLoop (path : List Char) (length : ℕ)
    (hlength : length = (stringIn path).length) :
    FirstReached Removes Trimmed (stringIn path) (stringIn (trimLoop path length).1) ∧
      (trimLoop path length).2 = (stringIn (trimLoop path length).1).length := by
  fun_induction trimLoop path length with
  | case1 path length hpos hslash ih =>
    subst hlength
    rw [getElem?_stringIn path (by omega)] at hslash
    have hcut := stringIn_set path ((stringIn path).length - 1)
    have hconcat := eq_concat_slash hslash.2
    rw [← hcut] at hconcat
    obtain ⟨hfirst, hlength⟩ := ih (by rw [hcut, List.length_take]; omega)
    refine ⟨hfirst.head rightUnique_removes (fun htrimmed => ?_) (.of_slash hconcat), hlength⟩
    rw [htrimmed.slash ⟨_, hconcat.symm⟩] at hslash
    exact absurd hslash.1 (lt_irrefl 1)
  | case2 path length hpos hslash hdot ih =>
    subst hlength
    rw [getElem?_stringIn path (by omega), getElem?_stringIn path (by omega)] at hdot
    have hcut := stringIn_set path ((stringIn path).length - 2)
    have hconcat := eq_concat_dot hdot.1 hdot.2.1 hdot.2.2
    rw [← hcut] at hconcat
    obtain ⟨hfirst, hlength⟩ := ih (by rw [hcut, List.length_take]; omega)
    exact ⟨hfirst.head rightUnique_removes (fun htrimmed => htrimmed.dot ⟨_, hconcat.symm⟩)
      (.of_dot hconcat), hlength⟩
  | case3 path length hpos hslash hdot =>
    subst hlength
    rw [getElem?_stringIn path (by omega)] at hslash
    rw [getElem?_stringIn path (by omega), getElem?_stringIn path (by omega)] at hdot
    exact ⟨.self (trimmed_of_not hslash hdot), rfl⟩
  | case4 path length hpos =>
    subst hlength
    have hnil : stringIn path = [] := List.eq_nil_of_length_eq_zero (by omega)
    exact ⟨.self (hnil ▸ trimmed_of_not (by simp) (by simp)), rfl⟩

/-- A string that is trimmed is left alone. -/
theorem trimLoop_of_trimmed (h : Trimmed (stringIn path)) :
    trimLoop path (stringIn path).length = (path, (stringIn path).length) := by
  rw [trimLoop]
  split_ifs with hpos hslash hdot
  · rw [getElem?_stringIn path (by omega)] at hslash
    rw [h.slash ⟨_, (eq_concat_slash hslash.2).symm⟩] at hslash
    exact absurd hslash.1 (lt_irrefl 1)
  · rw [getElem?_stringIn path (by omega), getElem?_stringIn path (by omega)] at hdot
    exact absurd ⟨_, (eq_concat_dot hdot.1 hdot.2.1 hdot.2.2).symm⟩ h.dot
  · rfl
  · rfl

end Loop

/-- **A path is trimmed as far as it can be, and no further**; what is left is not changed again. -/
theorem trim_longest (path : List Char) :
    LongestTrimmed (stringIn path) (stringIn (trim path).1) ∧
      (trim path).2 = (stringIn (trim path).1).length ∧ trim (trim path).1 = trim path := by
  obtain ⟨hfirst, hlength⟩ := firstReached_trimLoop path _ rfl
  refine ⟨longestTrimmed_of_first hfirst, hlength, ?_⟩
  exact (trimLoop_of_trimmed hfirst.holds).trans (Prod.ext rfl hlength.symm)

/-- Slashes and dots in turn. -/
example : stringIn (trim ['/', 'a', '/', '.', '/', '/', '\x00', '.']).1 = ['/', 'a'] := by
  simp [trim, trimLoop, stringIn]

end Web
