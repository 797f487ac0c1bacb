import Mathlib.Data.List.Basic
import Mathlib.Data.List.TakeWhile

/-!
# Machinery/Text — C strings, and what `printf` makes of them

A `CString` is the characters before the terminating null, one for each byte.  `format` is
`vsnprintf` with as much room as it takes, for patterns of `%s` and `%%`; a pattern with any other
directive, or with one and no argument for it, makes nothing that could be relied on.
-/

namespace Machinery

/-- A C string, without its terminating null. -/
abbrev CString := List Char

/-! ## Up to a character -/

section
variable {α : Type} [DecidableEq α] {c : α} {s : List α}

theorem takeWhile_ne_append (h : c ∉ s) (t : List α) :
    (s ++ t).takeWhile (· ≠ c) = s ++ t.takeWhile (· ≠ c) :=
  List.takeWhile_append_of_pos fun _ hx => decide_eq_true fun heq => h (heq ▸ hx)

theorem takeWhile_ne_cons (h : c ∉ s) (t : List α) : (s ++ c :: t).takeWhile (· ≠ c) = s := by
  rw [takeWhile_ne_append h, List.takeWhile_cons_of_neg (by simp), List.append_nil]

theorem notMem_takeWhile_ne (s : List α) : c ∉ s.takeWhile (· ≠ c) := fun hmem => by
  simpa using List.mem_takeWhile_imp hmem

/-- What is put in cuts it there. -/
theorem takeWhile_ne_set (s : List α) : ∀ n : ℕ,
    (s.set n c).takeWhile (· ≠ c) = (s.takeWhile (· ≠ c)).take n := by
  induction s with
  | nil => exact fun n => by simp
  | cons a s ih =>
    rintro (- | n)
    · simp
    · by_cases ha : a = c
      · simp [ha]
      · rw [List.set_cons_succ, List.takeWhile_cons, List.takeWhile_cons, ih, if_pos (by simpa using ha),
          if_pos (by simpa using ha), List.take_succ_cons]

end

/-- What is left of a list begins with what it was cut at. -/
theorem takeWhile_dropWhile {α : Type} {p : α → Bool} (l : List α) : (l.dropWhile p).takeWhile p = [] := by
  have hhead := List.head?_dropWhile_not p l
  cases hl : l.dropWhile p with
  | nil => rfl
  | cons a s =>
    rw [hl] at hhead
    exact List.takeWhile_cons_of_neg (by simpa using hhead)

/-- What is found of each member holds of them all; for characters of a text, which are too many to be
tried one by one. -/
theorem forall_mem_of_all {α : Type} {p : α → Prop} [DecidablePred p] {l : List α}
    (h : l.all (fun a => decide (p a)) = true) : ∀ a ∈ l, p a :=
  fun a ha => of_decide_eq_true (List.all_eq_true.mp h a ha)

/-! ## Parts -/

section
variable {α : Type} {c : α} {w s t : List α}

/-- What begins before a character that it does not have ends before it. -/
theorem prefix_of_append_cons (hc : c ∉ w) (h : w <+: s ++ c :: t) : w <+: s := by
  obtain hle | hlt := Nat.lt_or_ge s.length w.length
  · have hcut : s ++ [c] <+: s ++ c :: t := ⟨t, by rw [List.append_assoc, List.singleton_append]⟩
    have hlength : (s ++ [c]).length ≤ w.length := by
      rw [List.length_append, List.length_singleton]
      exact hle
    have hshort : s ++ [c] <+: w := List.prefix_of_prefix_length_le hcut h hlength
    exact absurd (hshort.subset (List.mem_append_right _ (List.mem_singleton_self c))) hc
  · exact List.prefix_of_prefix_length_le h (List.prefix_append s _) hlt

/-- A part is not in what has none of its characters: not before, -/
theorem infix_of_append_left (hw : w ≠ []) (hs : ∀ x ∈ s, x ∉ w) (h : w <:+: s ++ t) : w <:+: t := by
  induction s with
  | nil => exact h
  | cons x s ih =>
    obtain hprefix | hinfix := List.infix_cons_iff.mp h
    · obtain ⟨y, w, rfl⟩ := List.exists_cons_of_ne_nil hw
      obtain ⟨rfl, -⟩ := List.cons_prefix_cons.mp hprefix
      exact absurd List.mem_cons_self (hs y List.mem_cons_self)
    · exact ih (fun x hx => hs x (List.mem_cons_of_mem _ hx)) hinfix

/-- and not behind. -/
theorem infix_of_append_right (hw : w ≠ []) (ht : ∀ x ∈ t, x ∉ w) (h : w <:+: s ++ t) : w <:+: s := by
  induction s with
  | nil =>
    have hnil : w <:+: t ++ [] := by rwa [List.append_nil]
    exact infix_of_append_left hw ht hnil
  | cons x s ih =>
    obtain hprefix | hinfix := List.infix_cons_iff.mp h
    · cases t with
      | nil => rwa [List.append_nil] at h
      | cons y t => exact (prefix_of_append_cons (ht y List.mem_cons_self) hprefix).isInfix
    · exact (ih hinfix).trans (List.suffix_cons x s).isInfix

end

/-! ## Patterns -/

/-- What a pattern and its arguments make. -/
def format : CString → List CString → Option CString
  | [], _ => some []
  | '%' :: 's' :: cs, a :: as => (format cs as).map (a ++ ·)
  | '%' :: '%' :: cs, as => (format cs as).map ('%' :: ·)
  | '%' :: _, _ => none
  | c :: cs, as => (format cs as).map (c :: ·)

/-- `vsnprintf` into a buffer of `size` bytes, which keeps one for the null. -/
def vsnprintf (size : ℕ) (pattern : CString) (args : List CString) : Option CString :=
  (format pattern args).map (·.take (size - 1))

/-- `%-8s`. -/
def leftJustified (s : CString) : CString := s ++ List.replicate (8 - s.length) ' '

/-- A pattern without directives makes itself. -/
theorem format_of_plain : ∀ {s : CString} (args : List CString), '%' ∉ s →
    format s args = some s := by
  intro s
  induction s with
  | nil => exact fun args _ => rfl
  | cons c cs ih =>
    intro args hplain
    obtain ⟨hc, hcs⟩ := List.ne_and_not_mem_of_not_mem_cons hplain
    rw [format, ih args hcs]
    · rfl
    all_goals
      intros
      exact hc (Eq.symm ‹_›)

/-- What comes before the first directive is copied. -/
theorem format_append_of_plain {p : CString} (q : CString) (args : List CString) (hp : '%' ∉ p) :
    format (p ++ q) args = (format q args).map (p ++ ·) := by
  induction p with
  | nil => simp
  | cons c cs ih =>
    obtain ⟨hc, hcs⟩ := List.ne_and_not_mem_of_not_mem_cons hp
    rw [List.cons_append, format, ih hcs]
    · rw [Option.map_map]
      rfl
    all_goals
      intros
      exact hc (Eq.symm ‹_›)

/-- An argument goes where the directive is. -/
theorem format_directive (q a : CString) (args : List CString) :
    format ('%' :: 's' :: q) (a :: args) = (format q args).map (a ++ ·) := rfl

/-- Without arguments a pattern makes no more than itself. -/
theorem length_format_nil {s text : CString} (h : format s [] = some text) :
    text.length ≤ s.length := by
  generalize hargs : ([] : List CString) = args at h
  fun_induction format s args generalizing text with
  | case1 args =>
    obtain rfl := Option.some.inj h
    exact Nat.le_refl _
  | case2 cs a as ih => cases hargs
  | case3 cs args ih =>
    obtain ⟨rest, hrest, rfl⟩ := Option.map_eq_some_iff.mp h
    have hlength := ih hargs hrest
    simp only [List.length_cons]
    omega
  | case4 => cases h
  | case5 c cs args _ _ _ ih =>
    obtain ⟨rest, hrest, rfl⟩ := Option.map_eq_some_iff.mp h
    have hlength := ih hargs hrest
    simp only [List.length_cons]
    omega

/-- A pattern that makes as much as itself without arguments has no directive. -/
theorem plain_of_length_le {s text : CString} (h : format s [] = some text)
    (hlength : s.length ≤ text.length) : '%' ∉ s := by
  generalize hargs : ([] : List CString) = args at h
  fun_induction format s args generalizing text with
  | case1 args => exact List.not_mem_nil
  | case2 cs a as ih => cases hargs
  | case3 cs args ih =>
    obtain ⟨rest, hrest, rfl⟩ := Option.map_eq_some_iff.mp h
    subst hargs
    have hle := length_format_nil hrest
    simp only [List.length_cons] at hlength
    omega
  | case4 => cases h
  | case5 c cs args hs hpercent hother ih =>
    obtain ⟨rest, hrest, rfl⟩ := Option.map_eq_some_iff.mp h
    have hcs := ih (Nat.le_of_succ_le_succ hlength) hargs hrest
    exact fun hmem => (List.mem_cons.mp hmem).elim (fun hc => hother hc.symm) hcs

/-- A pattern that makes a text without a percent sign is that text. -/
theorem eq_of_format {s text : CString} (h : format s [] = some text) (hplain : '%' ∉ text) : text = s := by
  generalize hargs : ([] : List CString) = args at h
  fun_induction format s args generalizing text with
  | case1 args => exact (Option.some.inj h).symm
  | case2 cs a as ih => cases hargs
  | case3 cs args ih =>
    obtain ⟨rest, -, rfl⟩ := Option.map_eq_some_iff.mp h
    exact absurd List.mem_cons_self hplain
  | case4 => cases h
  | case5 c cs args _ _ _ ih =>
    obtain ⟨rest, hrest, rfl⟩ := Option.map_eq_some_iff.mp h
    rw [ih (fun hmem => hplain (List.mem_cons_of_mem _ hmem)) hargs hrest]

/-- A pattern that makes itself without arguments has no directive. -/
theorem plain_of_format {s : CString} (h : format s [] = some s) : '%' ∉ s :=
  plain_of_length_le h (Nat.le_refl _)

end Machinery
