import HtFirmware.Server.Redirect
import Mathlib.Tactic.IntervalCases

/-!
# Server/Reading — what `parse_request` makes of a text

The header lines it takes are not those of the text: one goes as far as the first line end behind the
first colon with a space, wherever that is.  `readLines` cuts a text so, and `sets_parseRequest` says
that the fields are set by what comes of it, and by whether an empty line is all that is left.

More text leaves the lines there are, so parsing what was received so far, each time there is more,
comes to the same as parsing it once (`Fresh.parseRequest`).
-/

open Machinery

namespace Server

/-! ## Needles -/

section Strings

variable {needle s t : CString} {n : ℕ}

/-- A text with the needle in it. -/
theorem eq_of_strstr (h : strstr needle s = some n) :
    s = s.take n ++ (needle ++ s.drop (n + needle.length)) := by
  obtain ⟨rest, hrest⟩ := (of_strstr h).1
  have hdrop : s.drop (n + needle.length) = rest := by
    rw [← List.drop_drop, ← hrest, List.drop_left]
  rw [hdrop, hrest, List.take_append_drop]

theorem length_le_of_strstr (h : strstr needle s = some n) : n + needle.length ≤ s.length := by
  obtain ⟨hfound, hfirst⟩ := of_strstr h
  have hle := hfound.length_le
  rw [List.length_drop] at hle
  have hn : n ≤ s.length := by
    refine Nat.le_of_not_lt fun hlt => hfirst 0 (by omega) ?_
    rw [List.length_eq_zero_iff.mp (by omega : needle.length = 0)]
    exact List.nil_prefix
  omega

/-- More text leaves the first needle where it is. -/
theorem strstr_append (h : strstr needle s = some n) (t : CString) :
    strstr needle (s ++ t) = some n := by
  have hlength := length_le_of_strstr h
  induction s generalizing n with
  | nil =>
    unfold strstr at h
    split_ifs at h with hneedle
    obtain rfl := Option.some.inj h
    subst hneedle
    cases t <;> simp [strstr]
  | cons c s ih =>
    have hshort : needle.length ≤ (c :: s).length := by omega
    unfold strstr at h
    rw [List.cons_append, strstr]
    by_cases hneedle : needle <+: c :: s
    · have hmore : needle <+: c :: (s ++ t) := hneedle.trans (List.prefix_append (c :: s) t)
      rw [if_pos hneedle] at h
      rw [if_pos hmore]
      exact h
    · rw [if_neg hneedle] at h
      have hnot : ¬ needle <+: c :: (s ++ t) := fun hmore =>
        hneedle (List.prefix_of_prefix_length_le hmore (List.prefix_append (c :: s) t) hshort)
      obtain ⟨k, hk, rfl⟩ := Option.map_eq_some_iff.mp h
      rw [if_neg hnot, ih hk (length_le_of_strstr hk)]
      rfl

/-- Where no needle is found there is none. -/
theorem not_prefix_of_strstr (h : strstr needle s = none) : ¬ needle <+: s.drop n := by
  induction s generalizing n with
  | nil =>
    unfold strstr at h
    split_ifs at h with hneedle
    rw [List.drop_nil]
    exact fun hprefix => hneedle (List.prefix_nil.mp hprefix)
  | cons c s ih =>
    unfold strstr at h
    split_ifs at h with hneedle
    cases n with
    | zero => exact hneedle
    | succ n => exact ih (Option.map_eq_none_iff.mp h)

/-- The first needle is found in as much of the text as holds it. -/
theorem strstr_take (h : strstr needle s = some n) (m : ℕ) :
    strstr needle (s.take m) = if n + needle.length ≤ m then some n else none := by
  have hlength := length_le_of_strstr h
  cases hs : strstr needle (s.take m) with
  | some k =>
    have hk := length_le_of_strstr hs
    have hsame := strstr_append hs (s.drop m)
    rw [List.take_append_drop, h] at hsame
    obtain rfl := Option.some.inj hsame
    rw [List.length_take] at hk
    rw [if_pos (by omega)]
  | none =>
    refine (if_neg fun hle => not_prefix_of_strstr hs (n := n) ?_).symm
    rw [List.drop_take]
    exact List.prefix_take_iff.mpr ⟨(of_strstr h).1, by omega⟩

/-- The needle is found behind a text it does not begin in. -/
theorem strstr_of_not (hneedle : ∀ m < s.length, ¬ needle <+: (s ++ t).drop m)
    (h : strstr needle t = some n) : strstr needle (s ++ t) = some (s.length + n) := by
  induction s with
  | nil => rw [List.nil_append, h, List.length_nil, Nat.zero_add]
  | cons c s ih =>
    have hhead : ¬ needle <+: c :: (s ++ t) := hneedle 0 (Nat.zero_lt_succ _)
    rw [List.cons_append, strstr, if_neg hhead,
      ih fun m hm => hneedle (m + 1) (Nat.succ_lt_succ hm), Option.map_some, List.length_cons]
    congr 1
    omega

end Strings

/-! ## Letters -/

/-- What is no letter comes of itself only. -/
theorem eq_of_toLower {c d : Char} (hd : d.isLower = false) (h : c.toLower = d) : c = d := by
  unfold Char.toLower at h
  split at h
  · rename_i hupper
    obtain ⟨hlow, hhigh⟩ := hupper
    rw [ge_iff_le, UInt32.le_iff_toNat_le] at hlow
    rw [UInt32.le_iff_toNat_le] at hhigh
    have hdifference : ('a'.val - 'A'.val).toNat = 32 := by decide
    have hval : d.val.toNat = (c.val + ('a'.val - 'A'.val)).toNat := by rw [← h]
    rw [UInt32.toNat_add, hdifference] at hval
    have hrange : (decide (d.val ≥ 'a'.val) && decide (d.val ≤ 'z'.val)) = false := hd
    simp only [Bool.and_eq_false_iff, decide_eq_false_iff_not, ge_iff_le,
      UInt32.le_iff_toNat_le] at hrange
    have ha : 'a'.val.toNat = 97 := rfl
    have hz : 'z'.val.toNat = 122 := rfl
    have hA : 'A'.val.toNat = 65 := rfl
    have hZ : 'Z'.val.toNat = 90 := rfl
    omega
  · exact h

/-! ## Lines -/

/-- A header line, as it is taken. -/
structure Line where
  name : CString
  value : CString

namespace Line

def text (l : Line) : CString := l.name ++ ':' :: ' ' :: l.value

/-- The line's name is that of a host. -/
def isHost (l : Line) : Bool := l.name.map Char.toLower = "host".toList

/-- As far as the line goes, it is "Connection: keep-alive". -/
def keepsAlive (l : Line) : Bool := strncasecmp l.text "Connection: keep-alive".toList l.text.length

end Line

/-- The line a text begins with, and what follows it. -/
def readLine (block : CString) : Option (Line × CString) := do
  let i ← strstr ": ".toList block
  let n ← strstr crlf (block.drop (i + 2))
  some (⟨block.take i, (block.drop (i + 2)).take n⟩, block.drop (i + 2 + (n + 2)))

/-- What is known of a line that was read. -/
structure Reads (block : CString) (l : Line) (rest : CString) : Prop where
  eq : block = l.text ++ crlf ++ rest
  colonSpace : strstr ": ".toList block = some l.name.length
  lineEnd : strstr crlf (block.drop (l.name.length + 2)) = some l.value.length

theorem Reads.eq_cons {block rest : CString} {l : Line} (h : Reads block l rest) :
    block = l.name ++ ':' :: ' ' :: (l.value ++ (crlf ++ rest)) := by
  have heq := h.eq
  simpa only [Line.text, List.append_assoc, List.cons_append] using heq

/-- The first line end behind the colon and the space is that of the line. -/
theorem Reads.strstr_value {block rest : CString} {l : Line} (h : Reads block l rest) :
    strstr crlf (l.value ++ (crlf ++ rest)) = some l.value.length := by
  have hdrop : block.drop (l.name.length + 2) = l.value ++ (crlf ++ rest) := by
    rw [h.eq_cons, ← List.drop_drop, List.drop_left]
    rfl
  exact hdrop ▸ h.lineEnd

theorem length_le_of_readLine {block : CString} {i n : ℕ} (hi : strstr ": ".toList block = some i)
    (hn : strstr crlf (block.drop (i + 2)) = some n) : i + 2 + (n + 2) ≤ block.length := by
  have htwo : ": ".toList.length = 2 := rfl
  have hcrlf : crlf.length = 2 := rfl
  have hlength := length_le_of_strstr hi
  have hlength' := length_le_of_strstr hn
  rw [htwo] at hlength
  rw [hcrlf, List.length_drop] at hlength'
  omega

theorem reads_of_readLine {block rest : CString} {l : Line} (h : readLine block = some (l, rest)) :
    Reads block l rest := by
  obtain ⟨i, hi, h⟩ := Option.bind_eq_some_iff.mp h
  obtain ⟨n, hn, h⟩ := Option.bind_eq_some_iff.mp h
  obtain ⟨rfl, rfl⟩ := Prod.mk.inj (Option.some.inj h)
  have htwo : ": ".toList.length = 2 := rfl
  have hcrlf : crlf.length = 2 := rfl
  have hlength := length_le_of_readLine hi hn
  have hcolon := eq_of_strstr hi
  have hend := eq_of_strstr hn
  rw [htwo] at hcolon
  rw [hcrlf, List.drop_drop] at hend
  have hname : (block.take i).length = i := List.length_take_of_le (by omega)
  have hvalue : ((block.drop (i + 2)).take n).length = n :=
    List.length_take_of_le (by rw [List.length_drop]; omega)
  refine ⟨?_, by rw [hname]; exact hi, by rw [hname, hvalue]; exact hn⟩
  refine hcolon.trans ((congrArg (fun s => block.take i ++ (": ".toList ++ s)) hend).trans ?_)
  simp only [Line.text, List.append_assoc, List.cons_append, Nat.add_assoc]
  rfl

theorem Reads.length {block rest : CString} {l : Line} (h : Reads block l rest) :
    block.length = l.text.length + 2 + rest.length := by
  have hcrlf : crlf.length = 2 := rfl
  rw [h.eq, List.length_append, List.length_append, hcrlf]

/-- The lines of a text, and what is left of it. -/
def readLines (block : CString) : List Line × CString :=
  match _ : readLine block with
  | none => ([], block)
  | some (l, rest) => (l :: (readLines rest).1, (readLines rest).2)
termination_by block.length
decreasing_by
  all_goals
    have hlength := (reads_of_readLine ‹_›).length
    omega

theorem readLines_of_none {block : CString} (h : readLine block = none) :
    readLines block = ([], block) := by
  rw [readLines]
  split
  · rfl
  · rename_i hsome
    rw [h] at hsome
    cases hsome

theorem readLines_of_some {block rest : CString} {l : Line} (h : readLine block = some (l, rest)) :
    readLines block = (l :: (readLines rest).1, (readLines rest).2) := by
  rw [readLines]
  split
  · rename_i hnone
    rw [h] at hnone
    cases hnone
  · rename_i l' rest' hsome
    obtain ⟨rfl, rfl⟩ := Prod.mk.inj (Option.some.inj (h.symm.trans hsome))
    rfl

/-- The text is its lines, and what is left. -/
theorem eq_readLines (block : CString) :
    block = (readLines block).1.flatMap (fun l => l.text ++ crlf) ++ (readLines block).2 := by
  fun_induction readLines block with
  | case1 block h => rfl
  | case2 block l rest h ih =>
    rw [List.flatMap_cons, List.append_assoc, ← ih]
    exact (reads_of_readLine h).eq

/-- More text leaves a line as it is. -/
theorem readLine_append {block rest : CString} {l : Line} (h : readLine block = some (l, rest))
    (t : CString) : readLine (block ++ t) = some (l, rest ++ t) := by
  obtain ⟨i, hi, h⟩ := Option.bind_eq_some_iff.mp h
  obtain ⟨n, hn, h⟩ := Option.bind_eq_some_iff.mp h
  obtain ⟨rfl, rfl⟩ := Prod.mk.inj (Option.some.inj h)
  have hlength := length_le_of_readLine hi hn
  have hdrop : (block ++ t).drop (i + 2) = block.drop (i + 2) ++ t :=
    List.drop_append_of_le_length (by omega)
  simp only [readLine, strstr_append hi, hdrop, strstr_append hn, bind, Option.bind_some]
  rw [List.take_append_of_le_length (by omega),
    List.take_append_of_le_length (by rw [List.length_drop]; omega),
    List.drop_append_of_le_length hlength]

/-- **More text leaves the lines there are.** -/
theorem readLines_isPrefix (block t : CString) :
    (readLines block).1 <+: (readLines (block ++ t)).1 := by
  fun_induction readLines block with
  | case1 block h => exact List.nil_prefix
  | case2 block l rest h ih =>
    rw [readLines_of_some (readLine_append h t)]
    exact List.cons_prefix_cons.mpr ⟨rfl, ih⟩

/-! ## What a line sets -/

section
variable {block rest : CString} {l : Line}

theorem Reads.take (h : Reads block l rest) : block.take l.text.length = l.text := by
  rw [h.eq, List.append_assoc, List.take_left]

/-- The comparison with "Connection: keep-alive" does not look behind the line. -/
theorem Reads.keepsAlive (h : Reads block l rest) :
    strncasecmp block "Connection: keep-alive".toList l.text.length = l.keepsAlive := by
  rw [Line.keepsAlive, strncasecmp, strncasecmp, h.take, List.take_length]

/-- Where the name ends there is a colon. -/
theorem Reads.getElem?_name (h : Reads block l rest) : block[l.name.length]? = some ':' := by
  rw [h.eq, Line.text, List.append_assoc, List.append_assoc,
    List.getElem?_append_right (Nat.le_refl _), Nat.sub_self]
  rfl

/-- That with "Host: " looks at the name. -/
theorem Reads.isHost (h : Reads block l rest) :
    strncasecmp block "Host: ".toList 6 = l.isHost := by
  have hconstant : ("Host: ".toList.take 6).map Char.toLower = "host: ".toList := by decide
  rw [strncasecmp, Line.isHost, hconstant, decide_eq_decide]
  have hblock := h.eq_cons
  constructor
  · intro hsame
    have hchar : ∀ j < 6, block[j]?.map Char.toLower = "host: ".toList[j]? := by
      intro j hj
      rw [← hsame, List.getElem?_map, List.getElem?_take_of_lt hj]
    have hexact : ∀ j < 6, ∀ d, "host: ".toList[j]? = some d → d.isLower = false →
        block[j]? = some d := by
      intro j hj d hd hlower
      obtain ⟨c, hc, hcd⟩ := Option.map_eq_some_iff.mp ((hchar j hj).trans hd)
      exact hc.trans (congrArg some (eq_of_toLower hlower hcd))
    have hcolon := hexact 4 (by decide) ':' rfl (by decide)
    have hspace := hexact 5 (by decide) ' ' rfl (by decide)
    have hle : l.name.length ≤ 4 := Nat.le_of_not_lt fun hlt =>
      (of_strstr h.colonSpace).2 4 hlt (pair_prefix_iff.mpr ⟨hcolon, hspace⟩)
    have hname := hchar l.name.length (by omega)
    rw [h.getElem?_name] at hname
    have hlength : l.name.length = 4 := by
      generalize l.name.length = n at hname hle
      interval_cases n
      all_goals first | rfl | exact absurd hname (by decide)
    have hfour : l.name = (block.take 6).take 4 := by
      rw [List.take_take, hblock, Nat.min_eq_left (by decide), List.take_left' hlength]
    rw [hfour, List.map_take, hsame]
    rfl
  · intro hname
    have hlength : l.name.length = 4 := by
      rw [← List.length_map (f := Char.toLower), hname]
      rfl
    have hsix : block.take 6 = l.name ++ [':', ' '] := by
      rw [hblock, List.take_append, hlength, List.take_of_length_le (by omega)]
      rfl
    rw [hsix, List.map_append, hname]
    rfl

/-- No line is both. -/
theorem Line.not_isHost_of_keepsAlive (h : l.keepsAlive = true) : l.isHost = false := by
  rw [Line.keepsAlive, strncasecmp, List.take_length] at h
  have hsame := of_decide_eq_true h
  refine decide_eq_false fun hhost => ?_
  have hfirst := congrArg List.head? hsame
  cases hname : l.name with
  | nil =>
    rw [hname] at hhost
    exact absurd hhost (by decide)
  | cons c cs =>
    rw [hname] at hhost
    have hc : c.toLower = 'h' := (List.cons.inj hhost).1
    simp only [Line.text, hname, List.cons_append, List.map_cons, List.head?_cons, hc,
      List.length_cons] at hfirst
    exact absurd (Option.some.inj hfirst) (by decide)

/-- **What a line sets.** -/
theorem Reads.parseHeader_eq (h : Reads block l rest) (r : Request) (s : ℕ) :
    parseHeader r s block l.name.length l.text.length = { r with
      host := if l.isHost then some (s + l.name.length + 2) else r.host
      keepAlive := r.keepAlive || l.keepsAlive } := by
  rw [parseHeader, h.keepsAlive, h.isHost]
  cases hkeeps : l.keepsAlive with
  | true =>
    rw [l.not_isHost_of_keepsAlive hkeeps, if_pos rfl, if_neg Bool.false_ne_true, Bool.or_true]
  | false =>
    rw [if_neg Bool.false_ne_true, Bool.or_false]
    cases l.isHost <;> rfl

end

/-! ## What the lines of a text set -/

/-- Where the value of the last host stands, when the first line stands at `s`. -/
def hostOffset : ℕ → List Line → Option ℕ
  | _, [] => none
  | s, l :: ls => (hostOffset (s + (l.text.length + 2)) ls).or
      (if l.isHost then some (s + l.name.length + 2) else none)

/-- Of the lines of a text, the first of them at `s`, the fields were set. -/
structure Parsed (s : ℕ) (read : List Line × CString) (r t : Request) : Prop where
  raw : t.raw = r.raw
  path : t.path = r.path
  host : t.host = (hostOffset s read.1).or r.host
  keepAlive : t.keepAlive = (r.keepAlive || read.1.any Line.keepsAlive)
  «end» : t.end.isSome = (r.end.isSome || decide (read.2 = crlf))

/-- A string within a string. -/
theorem stringFrom_add {raw : List Char} {i n : ℕ} (h : n ≤ (stringFrom raw i).length) :
    stringFrom raw (i + n) = (stringFrom raw i).drop n := by
  have hraw : raw.drop i = stringFrom raw i ++ (raw.drop i).dropWhile (· ≠ '\x00') :=
    List.takeWhile_append_dropWhile.symm
  have hplain : '\x00' ∉ (stringFrom raw i).drop n := fun hmem =>
    notMem_takeWhile_ne _ (List.mem_of_mem_drop hmem)
  rw [stringFrom, ← List.drop_drop, hraw, List.drop_append_of_le_length h,
    takeWhile_ne_append hplain, takeWhile_dropWhile, List.append_nil]

/-- The line end behind a colon and a space. -/
theorem strstr_crlf_colonSpace (s : CString) :
    strstr crlf (':' :: ' ' :: s) = (strstr crlf s).map (· + 2) := by
  have hcolon : ¬ crlf <+: ':' :: ' ' :: s := fun h => by simp [crlf] at h
  have hspace : ¬ crlf <+: ' ' :: s := fun h => by simp [crlf] at h
  rw [strstr, if_neg hcolon, strstr, if_neg hspace, Option.map_map]
  rfl

/-- Behind the colon and the space the same line end is found. -/
theorem strstr_crlf_drop {line : CString} {i : ℕ} (hi : strstr ": ".toList line = some i) :
    strstr crlf (line.drop i) = (strstr crlf (line.drop (i + 2))).map (· + 2) := by
  obtain ⟨rest, hrest⟩ := (of_strstr hi).1
  have hdrop : line.drop (i + 2) = rest := by
    rw [← List.drop_drop, ← hrest]
    rfl
  rw [hdrop, ← hrest]
  exact strstr_crlf_colonSpace rest

/-- A line is read where the loop finds one. -/
theorem readLine_of_strstr {line : CString} {i n : ℕ} (hi : strstr ": ".toList line = some i)
    (hn : strstr crlf (line.drop i) = some n) : ∃ l rest, readLine line = some (l, rest) ∧
      i = l.name.length ∧ i + n = l.text.length := by
  rw [strstr_crlf_drop hi] at hn
  obtain ⟨m, hm, rfl⟩ := Option.map_eq_some_iff.mp hn
  have hlength := length_le_of_readLine hi hm
  have hname : (line.take i).length = i := List.length_take_of_le (by omega)
  have hvalue : ((line.drop (i + 2)).take m).length = m :=
    List.length_take_of_le (by rw [List.length_drop]; omega)
  refine ⟨⟨line.take i, (line.drop (i + 2)).take m⟩, line.drop (i + 2 + (m + 2)), ?_, hname.symm, ?_⟩
  · simp only [readLine, hi, hm, bind, Option.bind_some]
  · simp only [Line.text, List.length_append, List.length_cons, hname, hvalue]

/-- No line is read where it finds none. -/
theorem readLine_eq_none {line : CString}
    (h : ∀ i, strstr ": ".toList line = some i → strstr crlf (line.drop i) = none) :
    readLine line = none := by
  cases hi : strstr ": ".toList line with
  | none => simp only [readLine, hi, bind, Option.bind_none]
  | some i =>
    have hnone := h i hi
    rw [strstr_crlf_drop hi, Option.map_eq_none_iff] at hnone
    simp only [readLine, hi, hnone, bind, Option.bind_some, Option.bind_none]

/-- A line, and those after it. -/
theorem Parsed.cons {s : ℕ} {l : Line} {ls : List Line} {block rest rest' : CString} {r u : Request}
    (hl : Reads block l rest) (h : Parsed (s + (l.text.length + 2)) (ls, rest')
      (parseHeader r s block l.name.length l.text.length) u) : Parsed s (l :: ls, rest') r u := by
  rw [hl.parseHeader_eq] at h
  refine ⟨h.raw, h.path, ?_, ?_, h.end⟩
  · rw [h.host, hostOffset, Option.or_assoc]
    cases l.isHost <;> rfl
  · rw [h.keepAlive, List.any_cons, Bool.or_assoc]

/-- What follows a line. -/
theorem Reads.stringFrom {raw : List Char} {s : ℕ} {l : Line} {rest : CString}
    (h : Reads (stringFrom raw s) l rest) :
    Server.stringFrom raw (s + (l.text.length + 2)) = rest := by
  have hlength := h.length
  have hcrlf : crlf.length = 2 := rfl
  rw [stringFrom_add (by omega), h.eq]
  exact List.drop_left' (by rw [List.length_append, hcrlf])

/-- **The loop of `parse_request` reads the lines**, and an empty one at the end. -/
theorem parsed_parseLines (s : ℕ) (r : Request) :
    Parsed s (readLines (stringFrom r.raw s)) r (parseLines s r) := by
  have hstop : ∀ {s : ℕ} {r : Request}, readLine (stringFrom r.raw s) = none →
      stringFrom r.raw s ≠ crlf → Parsed s (readLines (stringFrom r.raw s)) r r := by
    intro s r hnone hne
    rw [readLines_of_none hnone]
    exact ⟨rfl, rfl, rfl, (Bool.or_false _).symm, by simp [hne]⟩
  fun_induction parseLines s r with
  | case1 s r line hline =>
    have hcolon : strstr ": ".toList line = none := by
      rw [hline]
      rfl
    have hnone := readLine_eq_none fun i hi => by
      rw [hcolon] at hi
      cases hi
    rw [readLines_of_none hnone, hline]
    exact ⟨rfl, rfl, rfl, (Bool.or_false _).symm, by simp⟩
  | case2 s r line hline hcolon =>
    refine hstop (readLine_eq_none fun i hi => ?_) hline
    rw [hcolon] at hi
    cases hi
  | case3 s r line hline i hi hnone =>
    refine hstop (readLine_eq_none fun j hj => ?_) hline
    obtain rfl := Option.some.inj (hi.symm.trans hj)
    exact hnone
  | case4 s r line hline i hi n hn t hlt ih =>
    obtain ⟨l, rest, hread, rfl, htext⟩ := readLine_of_strstr hi hn
    have hl := reads_of_readLine hread
    have hrest := hl.stringFrom
    rw [readLines_of_some hread]
    refine Parsed.cons hl ?_
    rw [← htext] at hrest ⊢
    rw [raw_parseHeader, Nat.add_assoc, hrest] at ih
    exact ih
  | case5 s r line hline i hi n hn t hlt =>
    obtain ⟨l, rest, hread, rfl, htext⟩ := readLine_of_strstr hi hn
    have hl := reads_of_readLine hread
    have hrest := hl.stringFrom
    rw [readLines_of_some hread]
    refine Parsed.cons hl ?_
    rw [← htext] at hrest ⊢
    -- The loop ends where nothing was received.
    obtain rfl : [] = rest := by
      rw [← hrest, stringFrom, List.drop_eq_nil_of_le (by omega)]
      rfl
    have hempty := hstop (s := s + (l.name.length + n + 2)) (r := t)
      (by rw [raw_parseHeader, hrest]; rfl) (by rw [raw_parseHeader, hrest]; decide)
    rw [raw_parseHeader, hrest] at hempty
    exact hempty

/-! ## What a text sets -/

/-- A text that has a line end and a space: the first line, the lines read after it, and what is left. -/
structure Reading where
  first : CString
  lines : List Line
  rest : CString

def read (text : CString) : Option Reading := do
  let n ← strstr crlf text
  let _ ← strchr ' ' text
  let block := readLines (text.drop (n + 2))
  some ⟨text.take n, block.1, block.2⟩

/-- The path stands behind the first space. -/
def pathOffset (text : CString) : Option ℕ := (read text).bind fun _ => (strchr ' ' text).map (· + 1)

def hostOffset? (text : CString) : Option ℕ :=
  (read text).bind fun x => hostOffset (x.first.length + 2) x.lines

def keepsAlive (text : CString) : Bool := (read text).any fun x => x.lines.any Line.keepsAlive

/-- The request is complete when an empty line is left. -/
def complete (text : CString) : Bool := (read text).any fun x => x.rest = crlf

/-- **What `parse_request` sets** is what the text sets, or was set before. -/
structure Sets (text : CString) (r t : Request) : Prop where
  raw : t.raw = r.raw
  path : t.path = (pathOffset text).or r.path
  host : t.host = (hostOffset? text).or r.host
  keepAlive : t.keepAlive = (r.keepAlive || keepsAlive text)
  «end» : t.end.isSome = (r.end.isSome || complete text)

theorem sets_parseRequest (r : Request) : Sets (stringFrom r.raw 0) r (parseRequest r) := by
  generalize htext : stringFrom r.raw 0 = text
  have hnone : read text = none → Sets text r r := fun hread => by
    refine ⟨rfl, ?_, ?_, ?_, ?_⟩
    · rw [pathOffset, hread]; rfl
    · rw [hostOffset?, hread]; rfl
    · rw [keepsAlive, hread]; exact (Bool.or_false _).symm
    · rw [complete, hread]; exact (Bool.or_false _).symm
  unfold parseRequest
  rw [htext]
  cases hline : strstr crlf text with
  | none => exact hnone (by simp only [read, hline, bind, Option.bind_none])
  | some n =>
    cases hspace : strchr ' ' text with
    | none => exact hnone (by simp only [read, hline, hspace, bind, Option.bind_none, Option.bind_some])
    | some m =>
      have hlength := length_le_of_strstr hline
      have hcrlf : crlf.length = 2 := rfl
      have hread : read text = some ⟨text.take n, (readLines (text.drop (n + 2))).1,
          (readLines (text.drop (n + 2))).2⟩ := by
        simp only [read, hline, hspace, bind, Option.bind_some]
      have hfirst : (text.take n).length = n := List.length_take_of_le (by omega)
      have hparsed := parsed_parseLines (n + 2) { r with path := some (m + 1) }
      have hblock : stringFrom r.raw (n + 2) = text.drop (n + 2) := by
        rw [← htext, ← stringFrom_add (by rw [htext]; omega), Nat.zero_add]
      rw [show stringFrom ({ r with path := some (m + 1) } : Request).raw (n + 2)
        = text.drop (n + 2) from hblock] at hparsed
      refine ⟨hparsed.raw, ?_, ?_, ?_, ?_⟩
      · rw [hparsed.path, pathOffset, hread, hspace]
        rfl
      · rw [hparsed.host, hostOffset?, hread, Option.bind_some, hfirst]
      · rw [hparsed.keepAlive, keepsAlive, hread]
        rfl
      · rw [hparsed.end, complete, hread]
        rfl

/-! ## More text -/

/-- More text leaves what was read as it was, and may have more lines. -/
theorem read_append {text : CString} {x : Reading} (h : read text = some x) (t : CString) :
    strchr ' ' (text ++ t) = strchr ' ' text ∧
      ∃ y, read (text ++ t) = some y ∧ y.first = x.first ∧ x.lines <+: y.lines := by
  obtain ⟨n, hline, h⟩ := Option.bind_eq_some_iff.mp h
  obtain ⟨m, hspace, h⟩ := Option.bind_eq_some_iff.mp h
  obtain rfl := Option.some.inj h
  have hlength := length_le_of_strstr hline
  have hcrlf : crlf.length = 2 := rfl
  have hspace' : strchr ' ' (text ++ t) = strchr ' ' text := by
    unfold strchr at hspace ⊢
    rw [List.findIdx?_append, hspace, Option.some_or]
  refine ⟨hspace', _, by simp only [read, strstr_append hline, hspace', hspace, bind, Option.bind_some]; rfl,
    ?_, ?_⟩
  · exact List.take_append_of_le_length (by omega)
  · dsimp only
    rw [List.drop_append_of_le_length (by omega)]
    exact readLines_isPrefix _ t

theorem isSome_hostOffset (ls : List Line) : ∀ s : ℕ, (hostOffset s ls).isSome = ls.any Line.isHost := by
  induction ls with
  | nil => exact fun _ => rfl
  | cons l ls ih =>
    intro s
    rw [hostOffset, Option.isSome_or, ih, List.any_cons, Bool.or_comm]
    cases l.isHost <;> rfl

/-- What some text sets, more text sets. -/
theorem isSome_hostOffset?_append {text : CString} (h : (hostOffset? text).isSome) (t : CString) :
    (hostOffset? (text ++ t)).isSome := by
  cases hread : read text with
  | none =>
    rw [hostOffset?, hread] at h
    cases h
  | some x =>
    obtain ⟨-, y, hy, -, hlines⟩ := read_append hread t
    rw [hostOffset?, hread, Option.bind_some, isSome_hostOffset] at h
    rw [hostOffset?, hy, Option.bind_some, isSome_hostOffset]
    obtain ⟨l, hl, hhost⟩ := List.any_eq_true.mp h
    exact List.any_eq_true.mpr ⟨l, hlines.subset hl, hhost⟩

theorem keepsAlive_append {text : CString} (h : keepsAlive text = true) (t : CString) :
    keepsAlive (text ++ t) = true := by
  cases hread : read text with
  | none =>
    rw [keepsAlive, hread] at h
    cases h
  | some x =>
    obtain ⟨-, y, hy, -, hlines⟩ := read_append hread t
    rw [keepsAlive, hread] at h
    rw [keepsAlive, hy]
    obtain ⟨l, hl, hkeeps⟩ := List.any_eq_true.mp h
    exact List.any_eq_true.mpr ⟨l, hlines.subset hl, hkeeps⟩

theorem pathOffset_append {text : CString} {n : ℕ} (h : pathOffset text = some n) (t : CString) :
    pathOffset (text ++ t) = some n := by
  cases hread : read text with
  | none =>
    rw [pathOffset, hread] at h
    cases h
  | some x =>
    obtain ⟨hspace, y, hy, -, -⟩ := read_append hread t
    rw [pathOffset, hread] at h
    rw [pathOffset, hy, hspace]
    exact h

/-- More received is more text. -/
theorem stringFrom_append (raw piece : List Char) :
    ∃ t, stringFrom (raw ++ piece) 0 = stringFrom raw 0 ++ t := by
  rw [stringFrom, stringFrom, List.drop_zero, List.drop_zero, List.takeWhile_append]
  split_ifs with hall
  · exact ⟨_, by rw [(List.takeWhile_prefix _).eq_of_length hall]⟩
  · exact ⟨[], (List.append_nil _).symm⟩

/-- **The fields set so far are those the text received sets.** -/
structure Fresh (r : Request) : Prop where
  path : r.path = pathOffset (stringFrom r.raw 0)
  host : r.host = hostOffset? (stringFrom r.raw 0)
  keepAlive : r.keepAlive = keepsAlive (stringFrom r.raw 0)

theorem fresh_init : Fresh {} := ⟨rfl, rfl, rfl⟩

/-- What is set again by more text is as if it had not been set. -/
theorem or_of_isSome {α : Type} {a b : Option α} (h : b.isSome → a.isSome) : a.or b = a := by
  cases a with
  | some x => rfl
  | none =>
    cases b with
    | none => rfl
    | some y => cases h rfl

/-- **Parsing again comes to the same as parsing once.** -/
theorem Fresh.parseRequest {r : Request} (h : Fresh r) (piece : List Char) :
    Fresh (parseRequest { r with raw := r.raw ++ piece }) := by
  have hsets := sets_parseRequest { r with raw := r.raw ++ piece }
  obtain ⟨t, ht⟩ := stringFrom_append r.raw piece
  rw [show stringFrom ({ r with raw := r.raw ++ piece } : Request).raw 0 = _ from ht] at hsets
  have hraw : stringFrom (Server.parseRequest { r with raw := r.raw ++ piece }).raw 0
      = stringFrom r.raw 0 ++ t := by rw [hsets.raw, ← ht]
  refine ⟨?_, ?_, ?_⟩
  · rw [hsets.path, hraw]
    refine or_of_isSome fun hpath => ?_
    obtain ⟨n, hn⟩ := Option.isSome_iff_exists.mp hpath
    rw [pathOffset_append (h.path.symm.trans hn) t]
    rfl
  · rw [hsets.host, hraw]
    refine or_of_isSome fun hhost => isSome_hostOffset?_append ?_ t
    exact h.host ▸ hhost
  · rw [hsets.keepAlive, hraw, Bool.or_eq_right_iff_imp]
    exact fun hkeeps => keepsAlive_append (h.keepAlive.symm.trans hkeeps) t

end Server
