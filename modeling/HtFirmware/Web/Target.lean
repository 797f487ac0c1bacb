import HtFirmware.Web.Decoding

/-!
# Web/Target — the target of a request

`gm_uri_parse` decodes all of a target for its path, and looks for the question mark afterwards; it
does not look at what the decoding returned; and it splits the query without decoding what it splits
it into.  So it is right about a target exactly when there is no query, and every escape in the path
has a zero for its first digit (`parses_iff`).
-/

open Machinery

namespace Web

/-! ## Targets -/

/-- A pair of a query.  Neither part has a delimiter that stands for itself. -/
structure QueryPair where
  name : List Piece
  value : List Piece
  plain : ∀ p ∈ name ++ value, p.Literally fun c => c ∉ ['/', '?', '=', '&']

/-- A path: an encoding of less than 512 bytes, where a slash separates segments, or a text with a bad
escape. -/
inductive Path where
  | encoded (ps : List Piece) (plain : ∀ p ∈ ps, p.Literally fun c => c ∉ ['?', '=', '&'])
    (short : (bytes ps).length < 512)
  | malformed (s : CString) (plain : '?' ∉ s) (bad : (decodable s).2 ≠ [])

def Path.text : Path → CString
  | .encoded ps _ _ => encoding ps
  | .malformed s _ _ => s

/-- A request target, whose query has ten pairs at most. -/
structure Target where
  path : Path
  query : List QueryPair
  few : query.length ≤ 10

def questionMark : Piece := .literal '?' (by decide)

def equalsSign : Piece := .literal '=' (by decide)

def ampersand : Piece := .literal '&' (by decide)

def QueryPair.pieces (pair : QueryPair) : List Piece := pair.name ++ equalsSign :: pair.value

/-- The pairs, with an ampersand between any two. -/
def joined (pair : QueryPair) (pairs : List QueryPair) : List Piece :=
  pair.pieces ++ pairs.flatMap fun pair => ampersand :: pair.pieces

/-- The query, with its question mark, if there is one. -/
def queryPieces : List QueryPair → List Piece
  | [] => []
  | pair :: pairs => questionMark :: joined pair pairs

/-- How a target is written. -/
def Target.text (t : Target) : CString := '/' :: (t.path.text ++ encoding (queryPieces t.query))

/-- The value of the first pair with a name. -/
def Target.value (t : Target) (name : CString) : Option CString :=
  (t.query.find? fun pair => name = bytes pair.name).map fun pair => bytes pair.value

/-- **The target is understood**: its path and its parameters decoded, or a path that cannot be
refused. -/
def Parses (t : Target) : Prop :=
  match t.path with
  | .encoded ps _ _ => ∃ u, gmUriParse t.text = .ok u ∧ u.result = 0 ∧ u.path = bytes ps ∧
      ∀ name, gmParam u.params name = t.value name
  | .malformed _ _ _ => ∃ u, gmUriParse t.text = .ok u ∧ u.result ≠ 0

/-- **What it takes**: no query, and a path whose escapes have a zero for their first digit. -/
def Plain (t : Target) : Prop :=
  t.query = [] ∧ match t.path with
    | .encoded ps _ _ => ∀ p ∈ ps, p.Small
    | .malformed _ _ _ => False

/-! ## The query -/

theorem digit_notMem (d : HexDigit) : d.char ∉ ['/', '?', '=', '&'] :=
  HexDigit.forall_char (P := fun _ c => c ∉ ['/', '?', '=', '&']) (by decide) d

theorem literally_mono {P Q : Char → Prop} (h : ∀ c, P c → Q c) {p : Piece} (hp : p.Literally P) :
    p.Literally Q := by
  cases p with
  | literal c plain => exact h c hp
  | escape => trivial

/-- A delimiter stands nowhere in what has none that stands for itself. -/
theorem delimiter_notMem {delimiters : List Char} {c : Char} (hc : c ∈ delimiters)
    (hsub : c ∈ ['/', '?', '=', '&']) {ps : List Piece}
    (h : ∀ p ∈ ps, p.Literally fun c => c ∉ delimiters) : c ∉ encoding ps := by
  refine notMem_encoding ?_ (fun d heq => digit_notMem d (heq ▸ hsub)) fun p hp =>
    literally_mono (Q := (· ≠ c)) (fun d hd heq => hd (heq ▸ hc)) (h p hp)
  rintro rfl
  exact absurd hsub (by decide)

theorem encoding_append (ps qs : List Piece) : encoding (ps ++ qs) = encoding ps ++ encoding qs :=
  List.flatMap_append

/-- A well-formed query is split without complaint. -/
theorem gmParamParse_joined (pair : QueryPair) (pairs : List QueryPair) :
    (gmParamParse (encoding (joined pair pairs))).1 = 0 := by
  have hname : ∀ pair : QueryPair, '=' ∉ encoding pair.name := fun pair =>
    delimiter_notMem (by decide) (by decide) fun p hp => pair.plain p (List.mem_append_left _ hp)
  have hvalue : ∀ pair : QueryPair, '&' ∉ encoding pair.value := fun pair =>
    delimiter_notMem (by decide) (by decide) fun p hp => pair.plain p (List.mem_append_right _ hp)
  induction pairs generalizing pair with
  | nil =>
    have htext : encoding (joined pair []) = encoding pair.name ++ '=' :: encoding pair.value := by
      rw [joined, List.flatMap_nil, List.append_nil, QueryPair.pieces, encoding_append, encoding_cons]
      rfl
    rw [htext, gmParamParse_last (hname pair) (hvalue pair)]
  | cons next pairs ih =>
    have htext : encoding (joined pair (next :: pairs)) = encoding pair.name ++
        '=' :: (encoding pair.value ++ '&' :: encoding (joined next pairs)) := by
      rw [joined, List.flatMap_cons, QueryPair.pieces, encoding_append, encoding_append,
        encoding_cons, List.cons_append, encoding_cons, List.append_assoc]
      rfl
    rw [htext, gmParamParse_cons _ (hname pair) (hvalue pair)]
    exact ih next

/-! ## When a target is understood -/

theorem gmUriParse_text (t : Target) : gmUriParse t.text
    = (gmUriDecode 512 (t.path.text ++ encoding (queryPieces t.query)) []).bind fun decoded =>
      match index '?' (t.path.text ++ encoding (queryPieces t.query)) with
      | none => .ok ⟨0, decoded.2, [], t.path.text ++ encoding (queryPieces t.query)⟩
      | some (before, query) =>
        let parsed := gmParamParse query
        if 10 < parsed.2.length then .error .overrun
        else .ok ⟨parsed.1, decoded.2, parsed.2, before⟩ := rfl

/-- A path has no question mark. -/
theorem Path.plain_text (path : Path) : '?' ∉ path.text := by
  cases path with
  | encoded ps plain short => exact delimiter_notMem (by decide) (by decide) plain
  | malformed s plain bad => exact plain

/-- **Without a query** the path is decoded, and nothing is looked up. -/
theorem gmUriParse_of_nil {t : Target} {decoded : ℤ × CString} (hquery : t.query = [])
    (hdecode : gmUriDecode 512 t.path.text [] = .ok decoded) :
    gmUriParse t.text = .ok ⟨0, decoded.2, [], t.path.text⟩ := by
  have htext : t.path.text ++ encoding (queryPieces t.query) = t.path.text := by
    rw [hquery]
    exact List.append_nil _
  rw [gmUriParse_text, htext, index_of_notMem t.path.plain_text, hdecode]
  rfl

/-- **With a query** it is split without complaint, whatever became of the path. -/
theorem result_of_gmUriParse {t : Target} {u : GmUri} (h : gmUriParse t.text = .ok u) :
    u.result = 0 := by
  rw [gmUriParse_text] at h
  obtain ⟨decoded, -, h⟩ := bind_ok h
  cases hquery : t.query with
  | nil =>
    rw [hquery, show encoding (queryPieces []) = [] from rfl, List.append_nil,
      index_of_notMem t.path.plain_text] at h
    obtain rfl := Except.ok.inj h
    rfl
  | cons pair pairs =>
    have htext : encoding (queryPieces (pair :: pairs)) = '?' :: encoding (joined pair pairs) := rfl
    rw [hquery, htext, index_append _ t.path.plain_text] at h
    dsimp only at h
    split_ifs at h
    obtain rfl := Except.ok.inj h
    exact gmParamParse_joined pair pairs

/-- The path that is stored has all of the query. -/
theorem length_of_gmUriParse {t : Target} {u : GmUri} {ps : List Piece}
    (hpath : t.path.text = encoding ps) (h : gmUriParse t.text = .ok u) :
    u.path.length = ps.length + (queryPieces t.query).length := by
  rw [gmUriParse_text, hpath, ← encoding_append] at h
  obtain ⟨decoded, hdecode, h⟩ := bind_ok h
  have hfits : ([] : CString).length + (ps ++ queryPieces t.query).length < 512 := by
    refine Nat.lt_of_not_le fun hfull => ?_
    rw [gmUriDecode_encoding_overrun _ hfull] at hdecode
    cases hdecode
  rw [gmUriDecode_encoding _ hfits] at hdecode
  obtain rfl := Except.ok.inj hdecode
  have hstored : u.path = [] ++ (ps ++ queryPieces t.query).map decodedByte := by
    dsimp only at h
    split at h
    · exact (Except.ok.inj h) ▸ rfl
    · split_ifs at h
      exact (Except.ok.inj h) ▸ rfl
  rw [hstored, List.nil_append, List.length_map, List.length_append]

/-- A path without a query is decoded as its escapes allow. -/
theorem parses_of_nil_iff {t : Target} {ps : List Piece} (hquery : t.query = [])
    (hpath : t.path.text = encoding ps) (hshort : (bytes ps).length < 512) :
    (∃ u, gmUriParse t.text = .ok u ∧ u.result = 0 ∧ u.path = bytes ps ∧
      ∀ name, gmParam u.params name = t.value name) ↔ ∀ p ∈ ps, p.Small := by
  have hdecode : gmUriDecode 512 t.path.text [] = .ok (0, ps.map decodedByte) := by
    rw [hpath, gmUriDecode_encoding ps (by simpa using hshort), List.nil_append]
  have hvalue : ∀ name, gmParam [] name = t.value name := fun name => by
    rw [Target.value, hquery]
    rfl
  rw [gmUriParse_of_nil hquery hdecode, ← gmUriDecode_encoding_iff hshort, ← hpath, hdecode]
  constructor
  · rintro ⟨u, hu, -, hbytes, -⟩
    obtain rfl := Except.ok.inj hu
    exact congrArg _ (Prod.ext rfl hbytes)
  · intro h
    exact ⟨_, rfl, rfl, (Prod.mk.inj (Except.ok.inj h)).2, hvalue⟩

/-- A target that is understood is plain. -/
theorem plain_of_parses {t : Target} (h : Parses t) : Plain t := by
  unfold Parses at h
  unfold Plain
  cases hpath : t.path with
  | encoded ps plain short =>
    have htext : t.path.text = encoding ps := by rw [hpath]; rfl
    rw [hpath] at h
    cases hquery : t.query with
    | nil => exact ⟨rfl, (parses_of_nil_iff hquery htext short).mp h⟩
    | cons pair pairs =>
      obtain ⟨u, hparse, -, hbytes, -⟩ := h
      have hlength := length_of_gmUriParse htext hparse
      rw [hbytes, length_bytes, hquery, queryPieces, List.length_cons] at hlength
      omega
  | malformed s plain bad =>
    rw [hpath] at h
    obtain ⟨u, hparse, hresult⟩ := h
    exact absurd (result_of_gmUriParse hparse) hresult

/-- A plain target is understood. -/
theorem parses_of_plain {t : Target} (h : Plain t) : Parses t := by
  unfold Plain at h
  unfold Parses
  obtain ⟨hquery, hpieces⟩ := h
  cases hpath : t.path with
  | encoded ps plain short =>
    have htext : t.path.text = encoding ps := by rw [hpath]; rfl
    rw [hpath] at hpieces
    exact (parses_of_nil_iff hquery htext short).mpr hpieces
  | malformed s plain bad =>
    rw [hpath] at hpieces
    exact hpieces.elim

/-- **A target is understood exactly when there is no query, and every escape in the path has a zero for
its first digit.** -/
theorem parses_iff (t : Target) : Parses t ↔ Plain t := ⟨plain_of_parses, parses_of_plain⟩

/-- The parameter `a` of `/?a=b`. -/
def someTarget : Target where
  path := .encoded [] (List.forall_mem_nil _) (by decide)
  query := [⟨[.literal 'a' (by decide)], [.literal 'b' (by decide)], by
    simp only [List.singleton_append, List.forall_mem_cons, Piece.Literally]
    exact ⟨by decide, by decide, List.forall_mem_nil _⟩⟩]
  few := Nat.le_add_left 1 9

/-- A percent sign for a path. -/
def badTarget : Target where
  path := .malformed ['%'] (by decide) (by decide)
  query := []
  few := Nat.zero_le 10

/-- **`/?a=b` has `?a=b` for its path, and `/%` is accepted.** -/
theorem not_parses_someTarget : ¬ Parses someTarget ∧ ¬ Parses badTarget :=
  ⟨fun h => absurd (plain_of_parses h).1 (List.cons_ne_nil _ _), fun h => (plain_of_parses h).2⟩

end Web
