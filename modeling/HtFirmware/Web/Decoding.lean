import HtFirmware.Machinery.Percent
import HtFirmware.Web.Link

/-!
# Web/Decoding — what `gm_uri_decode` makes of a text, and where it reads and writes

The first digit of an escape counts ten where it should count sixteen, so decoding undoes an encoding
exactly when each escape has a zero there (`undoes_iff`).

The bound of the buffer is compared after the byte is written, the terminator is written without
comparing it, and an escape takes two bytes without looking for the end of the text: `contained_iff` says
which texts stay within the text and the buffer.
-/

open Machinery

namespace Web

/-! ## Decoding undoes encoding -/

/-- What `gm_uri_decode` makes of a piece. -/
def decodedByte : Piece → Char
  | .literal c _ => c
  | .escape high low _ => Char.ofNat ((high.value * 10 + low.value) % 256)

/-- **Decoding undoes encoding**, into a buffer of `size` bytes. -/
def Undoes (size : ℕ) (ps : List Piece) : Prop :=
  gmUriDecode size (encoding ps) [] = .ok (0, bytes ps)

theorem hexit_char (d : HexDigit) : hexit d.char = some d.value.val :=
  HexDigit.forall_char (P := fun n c => hexit c = some n) (by decide) d

/-- A piece is decoded, if there is room. -/
theorem gmUriDecode_piece {size : ℕ} (p : Piece) (s : CString) {written : CString}
    (hroom : written.length < size) : gmUriDecode size (p.text ++ s) written
      = gmUriDecode size s (written ++ [decodedByte p]) := by
  cases p with
  | literal c plain =>
    rw [Piece.text, List.singleton_append, gmUriDecode, if_neg (Nat.not_le.mpr hroom)]
    · rfl
    all_goals
      intros
      exact plain.1 ‹_›
  | escape high low notNull =>
    rw [Piece.text, List.cons_append, List.cons_append, List.cons_append, List.nil_append,
      gmUriDecode, hexit_char, hexit_char]
    exact if_neg (Nat.not_le.mpr hroom)

theorem gmUriDecode_piece_overrun {size : ℕ} (p : Piece) (s : CString) {written : CString}
    (hfull : size ≤ written.length) :
    gmUriDecode size (p.text ++ s) written = .error .overrun := by
  cases p with
  | literal c plain =>
    rw [Piece.text, List.singleton_append, gmUriDecode, if_pos hfull]
    all_goals
      intros
      exact plain.1 ‹_›
  | escape high low notNull =>
    rw [Piece.text, List.cons_append, List.cons_append, List.cons_append, List.nil_append,
      gmUriDecode, hexit_char, hexit_char]
    exact if_pos hfull

theorem gmUriDecode_encoding {size : ℕ} : ∀ (ps : List Piece) {written : CString},
    written.length + ps.length < size →
      gmUriDecode size (encoding ps) written = .ok (0, written ++ ps.map decodedByte) := by
  intro ps
  induction ps with
  | nil =>
    intro written hroom
    rw [List.length_nil, Nat.add_zero] at hroom
    rw [encoding, List.flatMap_nil, gmUriDecode, if_neg (Nat.not_le.mpr hroom), List.map_nil,
      List.append_nil]
  | cons p ps ih =>
    intro written hroom
    rw [List.length_cons] at hroom
    rw [encoding_cons, gmUriDecode_piece p _ (by omega), ih (by simp; omega), List.append_assoc]
    rfl

/-- What does not fit runs over the buffer. -/
theorem gmUriDecode_encoding_overrun {size : ℕ} : ∀ (ps : List Piece) {written : CString},
    size ≤ written.length + ps.length →
      gmUriDecode size (encoding ps) written = .error .overrun := by
  intro ps
  induction ps with
  | nil =>
    intro written hfull
    exact if_pos hfull
  | cons p ps ih =>
    intro written hfull
    rw [List.length_cons] at hfull
    by_cases hroom : written.length < size
    · rw [encoding_cons, gmUriDecode_piece p _ hroom]
      exact ih (by simp; omega)
    · rw [encoding_cons]
      exact gmUriDecode_piece_overrun p _ (Nat.le_of_not_lt hroom)

/-- An escape is decoded to its byte when ten times its first digit is sixteen times that. -/
theorem decodedByte_eq_iff (p : Piece) : decodedByte p = p.byte ↔ p.Small := by
  cases p with
  | literal c plain => exact iff_of_true rfl trivial
  | escape high low notNull =>
    have hhigh := high.value.isLt
    have hlow := low.value.isLt
    dsimp only [decodedByte, Piece.byte, Piece.Small, escapedByte]
    constructor
    · intro h
      have hcode := eq_of_ofNat h notNull
      have hbyte := eq_of_ofNat (show Char.ofNat (high.value * 16 + low.value) = _ from rfl) notNull
      omega
    · intro h
      rw [h]
      congr 1
      omega

theorem gmUriDecode_encoding_iff {size : ℕ} {ps : List Piece} (hsize : (bytes ps).length < size) :
    gmUriDecode size (encoding ps) [] = .ok (0, bytes ps) ↔ ∀ p ∈ ps, p.Small := by
  rw [length_bytes] at hsize
  rw [gmUriDecode_encoding ps (by simpa using hsize), List.nil_append, bytes]
  simp only [Except.ok.injEq, Prod.mk.injEq, true_and, List.map_inj_left, decodedByte_eq_iff]

/-- **Decoding undoes an encoding exactly when every escape in it has a zero for its first digit.** -/
theorem undoes_iff {size : ℕ} {ps : List Piece} (hsize : (bytes ps).length < size) :
    Undoes size ps ↔ ∀ p ∈ ps, p.Small := gmUriDecode_encoding_iff hsize

/-- A tab is decoded. -/
theorem undoes_tab : Undoes 2 [.escape ⟨0, false⟩ ⟨9, false⟩ (by decide)] ↔
    ∀ p ∈ [Piece.escape ⟨0, false⟩ ⟨9, false⟩ (by decide)], p.Small :=
  undoes_iff (by decide)

/-- **A space comes out as a character of code 20.** -/
theorem not_undoes_space : ¬ Undoes 2 [.escape ⟨2, false⟩ ⟨0, false⟩ (by decide)] :=
  fun h => absurd ((gmUriDecode_encoding_iff (by decide)).mp h _ List.mem_cons_self) (by decide)

/-! ## Where it reads and writes -/

/-- A byte read from the text, and one written to the buffer. -/
inductive Access where
  | read (i : ℕ)
  | write (i : ℕ) (c : Char)
  deriving DecidableEq

/-- `gm_uri_decode`: its result, and its accesses, in order; `i` bytes of the text have been read and
`b` bytes written. -/
def uriDecodeAccesses (size : ℕ) : CString → ℕ → ℕ → ℤ × List Access
  | [], i, b => (0, [.read i, .write b '\x00'])
  | '%' :: first :: second :: s, i, b =>
    let reads : List Access := [.read i, .read (i + 1), .read (i + 2)]
    match hexit first, hexit second with
    | some x, some y =>
      let wrote := reads ++ [.write b (Char.ofNat ((x * 10 + y) % 256))]
      if size < b + 1 then (-1, wrote)
      else
        let rest := uriDecodeAccesses size s (i + 3) (b + 1)
        (rest.1, wrote ++ rest.2)
    | _, _ => (-1, reads ++ [.write 0 '\x00'])
  -- The text ends in the escape: its null is no digit, and what follows the null is read all the same.
  | '%' :: _, i, _ => (-1, [.read i, .read (i + 1), .read (i + 2), .write 0 '\x00'])
  | c :: s, i, b =>
    let wrote : List Access := [.read i, .write b c]
    if size < b + 1 then (-1, wrote)
    else
      let rest := uriDecodeAccesses size s (i + 1) (b + 1)
      (rest.1, wrote ++ rest.2)

/-- What was last written to a byte of the buffer. -/
def Access.at (i : ℕ) : Access → Option Char
  | .read _ => none
  | .write j c => if j = i then some c else none

/-- The byte of the buffer after some accesses, if they wrote it. -/
def written (accesses : List Access) (i : ℕ) : Option Char :=
  (accesses.filterMap (Access.at i)).getLast?

/-- An access is to the text, as far as its null, or to the buffer. -/
def Access.Inside (size textEnd : ℕ) : Access → Prop
  | .read i => i ≤ textEnd
  | .write i _ => i < size

/-- **Decoding stays within the text and the buffer**, and leaves a string when it succeeds. -/
structure Contained (size : ℕ) (s : CString) : Prop where
  inside : ∀ a ∈ (uriDecodeAccesses size s 0 0).2, a.Inside size s.length
  terminated : (uriDecodeAccesses size s 0 0).1 = 0 →
    ∃ i < size, written (uriDecodeAccesses size s 0 0).2 i = some '\x00'

/-- How many bytes a text stands for as far as its first bad escape, and the text from there on. -/
def decodable : CString → ℕ × CString
  | [] => (0, [])
  | '%' :: first :: second :: s =>
    if (hexit first).isSome ∧ (hexit second).isSome then ((decodable s).1 + 1, (decodable s).2)
    else (0, '%' :: first :: second :: s)
  | '%' :: s => (0, '%' :: s)
  | _ :: s => ((decodable s).1 + 1, (decodable s).2)

/-- **What it takes**, of a text that stands for so many bytes and has a rest, with `b` bytes written:
the rest is not a percent sign alone, and the bytes are less than the buffer has room for, or as many
if there is a rest. -/
def Held (size b : ℕ) (d : ℕ × CString) : Prop :=
  d.2 ≠ ['%'] ∧ (b + d.1 < size ∨ b + d.1 = size ∧ d.2 ≠ [])

instance (size b : ℕ) (d : ℕ × CString) : Decidable (Held size b d) :=
  inferInstanceAs (Decidable (_ ∧ _))

/-! ### What it takes -/

section Inside

variable {size textEnd : ℕ}

theorem forall_inside_reads {i : ℕ} (h : i + 2 ≤ textEnd) :
    ∀ a ∈ [Access.read i, Access.read (i + 1), Access.read (i + 2)], a.Inside size textEnd := by
  simp only [List.forall_mem_cons, Access.Inside]
  exact ⟨by omega, by omega, h, List.forall_mem_nil _⟩

/-- A bad escape is read, and the buffer emptied. -/
theorem forall_inside_bad {i : ℕ} (hsize : 0 < size) (h : i + 2 ≤ textEnd) :
    ∀ a ∈ [Access.read i, .read (i + 1), .read (i + 2), .write 0 '\x00'],
      a.Inside size textEnd := by
  simp only [List.forall_mem_cons, Access.Inside]
  exact ⟨by omega, by omega, h, hsize, List.forall_mem_nil _⟩

/-- An escape of which a digit is none. -/
theorem uriDecodeAccesses_bad {first second : Char} {s : CString} {i b : ℕ}
    (hdigits : ¬ ((hexit first).isSome ∧ (hexit second).isSome)) :
    uriDecodeAccesses size ('%' :: first :: second :: s) i b
      = (-1, [.read i, .read (i + 1), .read (i + 2), .write 0 '\x00']) := by
  rw [uriDecodeAccesses]
  cases hx : hexit first with
  | none => rfl
  | some x =>
    cases hy : hexit second with
    | none => rfl
    | some y => exact absurd ⟨by rw [hx]; rfl, by rw [hy]; rfl⟩ hdigits

/-- **A byte is decoded inside when there is room for it**, and the rest is then decoded inside. -/
theorem forall_inside_unit {reads : List Access} {rest : ℤ × List Access} {b : ℕ} (c : Char)
    (hreads : ∀ a ∈ reads, a.Inside size textEnd) :
    (∀ a ∈ (if size < b + 1 then (-1, reads ++ [.write b c])
        else (rest.1, reads ++ [.write b c] ++ rest.2)).2, a.Inside size textEnd) ↔
      b < size ∧ ∀ a ∈ rest.2, a.Inside size textEnd := by
  by_cases hroom : b < size
  · rw [if_neg (by omega), List.forall_mem_append, List.forall_mem_append,
      List.forall_mem_singleton]
    exact ⟨fun h => ⟨hroom, h.2⟩, fun h => ⟨⟨hreads, hroom⟩, h.2⟩⟩
  · rw [if_pos (by omega), List.forall_mem_append, List.forall_mem_singleton]
    exact iff_of_false (fun h => hroom h.2) fun h => hroom h.1

theorem held_succ {b n : ℕ} {rest : CString} :
    Held size b (n + 1, rest) ↔ b < size ∧ Held size (b + 1) (n, rest) := by
  have hadd : b + (n + 1) = b + 1 + n := by omega
  unfold Held
  dsimp only
  rw [hadd]
  refine ⟨fun h => ⟨?_, h⟩, fun h => h.2⟩
  obtain hlt | ⟨heq, -⟩ := h.2
  · omega
  · omega

/-- At a bad escape that does not end in the percent sign there is nothing more to hold. -/
theorem held_zero {b : ℕ} {rest : CString} (hb : b ≤ size) (hrest : rest ≠ []) :
    Held size b (0, rest) ↔ rest ≠ ['%'] :=
  and_iff_left ((Nat.lt_or_eq_of_le hb).imp id fun heq => ⟨heq, hrest⟩)

theorem forall_inside_iff (hsize : 0 < size) (s : CString) : ∀ i b : ℕ, b ≤ size →
    ((∀ a ∈ (uriDecodeAccesses size s i b).2, a.Inside size (i + s.length)) ↔
      Held size b (decodable s)) := by
  induction s using decodable.induct with
  | case1 =>
    intro i b hb
    simp [uriDecodeAccesses, decodable, Access.Inside, Held]
  | case2 first second s hdigits ih =>
    intro i b hb
    obtain ⟨x, hx⟩ := Option.isSome_iff_exists.mp hdigits.1
    obtain ⟨y, hy⟩ := Option.isSome_iff_exists.mp hdigits.2
    have hlength : i + ('%' :: first :: second :: s).length = i + 3 + s.length := by
      simp only [List.length_cons]
      omega
    rw [uriDecodeAccesses, decodable, if_pos hdigits, hx, hy, hlength, held_succ]
    exact (forall_inside_unit _ (forall_inside_reads (by omega))).trans
      (and_congr_right fun hroom => ih (i + 3) (b + 1) hroom)
  | case3 first second s hdigits =>
    intro i b hb
    rw [uriDecodeAccesses_bad hdigits, decodable, if_neg hdigits, held_zero hb (List.cons_ne_nil _ _)]
    exact iff_of_true (forall_inside_bad hsize (by simp only [List.length_cons]; omega)) nofun
  | case4 s hs =>
    intro i b hb
    rw [uriDecodeAccesses, decodable, held_zero hb (List.cons_ne_nil _ _)]
    · -- With a character after the percent sign, its null is the last byte read.
      obtain _ | ⟨c, _ | ⟨d, s⟩⟩ := s
      · refine iff_of_false (fun h => ?_) fun h => h rfl
        have hread : i + 2 ≤ i + 1 := h (.read (i + 2)) (by simp)
        omega
      · exact iff_of_true (forall_inside_bad hsize (Nat.le_refl _)) nofun
      · exact (hs c d s rfl).elim
    all_goals exact hs
  | case5 c s hs hc ih =>
    intro i b hb
    have hlength : i + (c :: s).length = i + 1 + s.length := by
      rw [List.length_cons]
      omega
    have hread : ∀ a ∈ [Access.read i], a.Inside size (i + 1 + s.length) :=
      List.forall_mem_singleton.mpr (show i ≤ i + 1 + s.length by omega)
    rw [uriDecodeAccesses, decodable, hlength, held_succ]
    · exact (forall_inside_unit c hread).trans
        (and_congr_right fun hroom => ih (i + 1) (b + 1) hroom)
    all_goals assumption

/-- A decoding that succeeds ends by writing a null. -/
theorem exists_of_success (s : CString) : ∀ i b : ℕ, (uriDecodeAccesses size s i b).1 = 0 →
    ∃ before j, (uriDecodeAccesses size s i b).2 = before ++ [.write j '\x00'] := by
  have hunit : ∀ {accesses : List Access} {rest : ℤ × List Access} {b : ℕ},
      (rest.1 = 0 → ∃ before j, rest.2 = before ++ [.write j '\x00']) →
      (if size < b + 1 then (-1, accesses) else (rest.1, accesses ++ rest.2)).1 = 0 →
      ∃ before j, (if size < b + 1 then (-1, accesses) else (rest.1, accesses ++ rest.2)).2
        = before ++ [.write j '\x00'] := by
    intro accesses rest b hrest hsuccess
    split_ifs at hsuccess ⊢
    · cases hsuccess
    · obtain ⟨before, j, hlast⟩ := hrest hsuccess
      exact ⟨accesses ++ before, j, by rw [hlast, List.append_assoc]⟩
  induction s using decodable.induct with
  | case1 => exact fun i b _ => ⟨[.read i], b, rfl⟩
  | case2 first second s hdigits ih =>
    obtain ⟨x, hx⟩ := Option.isSome_iff_exists.mp hdigits.1
    obtain ⟨y, hy⟩ := Option.isSome_iff_exists.mp hdigits.2
    intro i b
    rw [uriDecodeAccesses, hx, hy]
    exact hunit (ih (i + 3) (b + 1))
  | case3 first second s hdigits =>
    intro i b
    rw [uriDecodeAccesses_bad hdigits]
    exact nofun
  | case4 s hs =>
    intro i b
    rw [uriDecodeAccesses]
    · exact nofun
    · exact hs
  | case5 c s hs hc ih =>
    intro i b
    rw [uriDecodeAccesses]
    · exact hunit (ih (i + 1) (b + 1))
    all_goals assumption

/-- What stays within the text and the buffer is held. -/
theorem held_of_contained (hsize : 1 ≤ size) {s : CString} (h : Contained size s) :
    Held size 0 (decodable s) := by
  have hinside := forall_inside_iff hsize s 0 0 (Nat.zero_le size)
  rw [Nat.zero_add] at hinside
  exact hinside.mp h.inside

/-- **Decoding stays within the text and the buffer exactly when it is held.** -/
theorem contained_iff (hsize : 1 ≤ size) (s : CString) : Contained size s ↔ Held size 0 (decodable s) := by
  have hinside := forall_inside_iff hsize s 0 0 (Nat.zero_le size)
  rw [Nat.zero_add] at hinside
  refine ⟨held_of_contained hsize, fun h => ⟨hinside.mpr h, fun hsuccess => ?_⟩⟩
  obtain ⟨before, j, hlast⟩ := exists_of_success s 0 0 hsuccess
  have hwrite := hinside.mpr h (.write j '\x00') (by rw [hlast]; simp)
  refine ⟨j, hwrite, ?_⟩
  rw [written, hlast, List.filterMap_append]
  simp [Access.at]

/-! ### The decoding itself -/

/-- The result is this one, and all writes are inside the buffer. -/
def EndsInside (size : ℕ) (result : ℤ) (decoded : ℤ × List Access) : Prop :=
  decoded.1 = result ∧ ∀ j c, .write j c ∈ decoded.2 → j < size

/-- A byte is written, with room for it. -/
theorem EndsInside.unit {result : ℤ} {rest : ℤ × List Access} {reads : List Access} {b : ℕ} (c : Char)
    (h : EndsInside size result rest) (hroom : ¬ size ≤ b) (hreads : ∀ j d, .write j d ∉ reads) :
    EndsInside size result (if size < b + 1 then (-1, reads ++ [.write b c])
      else (rest.1, reads ++ [.write b c] ++ rest.2)) := by
  rw [if_neg (by omega)]
  refine ⟨h.1, fun j d hmem => ?_⟩
  obtain hmem | hmem := List.mem_append.mp hmem
  · obtain hmem | hmem := List.mem_append.mp hmem
    · exact absurd hmem (hreads j d)
    · obtain ⟨rfl, -⟩ := Access.write.inj (List.mem_singleton.mp hmem)
      exact Nat.lt_of_not_le hroom
  · exact h.2 j d hmem

/-- A bad escape empties the buffer. -/
theorem EndsInside.bad {reads : List Access} (hsize : 0 < size) (hreads : ∀ j d, .write j d ∉ reads) :
    EndsInside size (-1) (-1, reads ++ [.write 0 '\x00']) := by
  refine ⟨rfl, fun j d hmem => ?_⟩
  obtain hmem | hmem := List.mem_append.mp hmem
  · exact absurd hmem (hreads j d)
  · obtain ⟨rfl, -⟩ := Access.write.inj (List.mem_singleton.mp hmem)
    exact hsize

theorem write_notMem_reads (i j : ℕ) (d : Char) :
    .write j d ∉ [Access.read i, Access.read (i + 1), Access.read (i + 2)] := by simp

/-- **What `gm_uri_decode` comes to its end with it came to by these accesses**, and wrote inside the
buffer. -/
theorem endsInside_of_gmUriDecode {r : ℤ × CString} (hsize : 0 < size) (s : CString) :
    ∀ {already : CString} (i : ℕ), gmUriDecode size s already = .ok r →
      EndsInside size r.1 (uriDecodeAccesses size s i already.length) := by
  induction s using decodable.induct with
  | case1 =>
    intro already i h
    rw [gmUriDecode] at h
    split_ifs at h with hroom
    obtain rfl := Except.ok.inj h
    refine ⟨rfl, fun j c hmem => ?_⟩
    simp only [uriDecodeAccesses, List.mem_cons, reduceCtorEq, Access.write.injEq, List.not_mem_nil,
      false_or, or_false] at hmem
    exact hmem.1 ▸ Nat.lt_of_not_le hroom
  | case2 first second s hdigits ih =>
    intro already i h
    obtain ⟨x, hx⟩ := Option.isSome_iff_exists.mp hdigits.1
    obtain ⟨y, hy⟩ := Option.isSome_iff_exists.mp hdigits.2
    rw [gmUriDecode, hx, hy] at h
    dsimp only at h
    split_ifs at h with hroom
    have hrest := ih (i + 3) h
    rw [List.length_append, List.length_singleton] at hrest
    rw [uriDecodeAccesses, hx, hy]
    exact hrest.unit _ hroom (write_notMem_reads i)
  | case3 first second s hdigits =>
    intro already i h
    rw [uriDecodeAccesses_bad hdigits]
    rw [gmUriDecode] at h
    have hresult : r = (-1, []) := by
      split at h
      · rename_i hx hy
        exact absurd ⟨by rw [hx]; rfl, by rw [hy]; rfl⟩ hdigits
      · exact (Except.ok.inj h).symm
    rw [hresult]
    exact EndsInside.bad hsize (write_notMem_reads i)
  | case4 s hs =>
    intro already i h
    rw [gmUriDecode] at h
    · rw [uriDecodeAccesses, ← Except.ok.inj h]
      · exact EndsInside.bad hsize (write_notMem_reads i)
      · exact hs
    · exact hs
  | case5 c s hs hc ih =>
    intro already i h
    rw [gmUriDecode] at h
    · split_ifs at h with hroom
      have hrest := ih (i + 1) h
      rw [List.length_append, List.length_singleton] at hrest
      rw [uriDecodeAccesses]
      · exact @EndsInside.unit _ _ _ [.read i] _ c hrest hroom (by simp)
      all_goals assumption
    all_goals assumption

end Inside

/-- A text that fits. -/
theorem contained_path : Contained 512 "a%20b".toList ↔ Held 512 0 (decodable "a%20b".toList) :=
  contained_iff (by decide) _

/-- **A text that ends in a percent sign is read beyond its null, and one as long as the buffer is
written beyond it.** -/
theorem not_contained_percent : ¬ Contained 512 "%".toList ∧ ¬ Contained 1 "a".toList :=
  ⟨fun h => absurd (held_of_contained (by decide) h) (by decide),
    fun h => absurd (held_of_contained (by decide) h) (by decide)⟩

end Web
