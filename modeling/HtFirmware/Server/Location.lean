import HtFirmware.Machinery.Run
import HtFirmware.Server.Reading

/-!
# Server/Location — what ends the path and the host

When a request is complete, the handler looks for the space behind the path and for the line end behind
the host, and makes nulls of them, wherever they are.  The path may be that of a header line, the space
may stand in the host, and the null of the one may hide the other.

In terms of the text received: the searches find what they look for, and nothing that is put into the
answer has a line end, exactly when the text is `Orderly`.
-/

open Machinery

namespace Server

/-! ## The text around the host -/

/-- What stands before the space of the host's line, its value, and what follows. -/
structure Around where
  before : CString
  value : CString
  after : CString

/-- The last host of some lines, in a text. -/
def around : CString → List Line → CString → Option Around
  | _, [], _ => none
  | before, l :: ls, rest => (around (before ++ (l.text ++ crlf)) ls rest).or
      (if l.isHost then some ⟨before ++ l.name ++ [':'], l.value,
        crlf ++ (ls.flatMap (fun l => l.text ++ crlf) ++ rest)⟩ else none)

def aroundHost (text : CString) : Option Around :=
  (read text).bind fun x => around (x.first ++ crlf) x.lines x.rest

theorem hostOffset_eq_around (rest : CString) (ls : List Line) : ∀ before : CString,
    hostOffset before.length ls = (around before ls rest).map (·.before.length + 1) := by
  induction ls with
  | nil => exact fun _ => rfl
  | cons l ls ih =>
    intro before
    have hcrlf : crlf.length = 2 := rfl
    have hnext : before.length + (l.text.length + 2) = (before ++ (l.text ++ crlf)).length := by
      rw [List.length_append, List.length_append, hcrlf]
    rw [hostOffset, around, hnext, ih, Option.map_or]
    cases l.isHost
    · rfl
    · simp only [if_true, Option.map_some, List.length_append, List.length_singleton]

/-- The text is what stands around the host, whose value ends at the first line end. -/
structure Around.In (a : Around) (text : CString) : Prop where
  eq : text = a.before ++ ' ' :: (a.value ++ a.after)
  lineEnd : strstr crlf (a.value ++ a.after) = some a.value.length
  after : crlf <+: a.after

theorem in_of_around {block : CString} : ∀ {before : CString} {a : Around},
    around before (readLines block).1 (readLines block).2 = some a → a.In (before ++ block) := by
  fun_induction readLines block with
  | case1 block h => exact fun h => by cases h
  | case2 block l rest h ih =>
    intro before a ha
    have hl := reads_of_readLine h
    obtain ha | ⟨-, ha⟩ := Option.or_eq_some_iff.mp ha
    · have hin := ih ha
      rw [List.append_assoc, ← hl.eq] at hin
      exact hin
    · split_ifs at ha
      obtain rfl := Option.some.inj ha
      rw [← eq_readLines]
      refine ⟨?_, hl.strstr_value, List.prefix_append _ _⟩
      rw [hl.eq_cons]
      simp only [List.append_assoc, List.cons_append, List.nil_append]

/-- **The host that is found stands in the text so.** -/
theorem in_of_aroundHost {text : CString} {a : Around} (h : aroundHost text = some a) :
    a.In text := by
  obtain ⟨x, hx, ha⟩ := Option.bind_eq_some_iff.mp h
  obtain ⟨n, hline, hx⟩ := Option.bind_eq_some_iff.mp hx
  obtain ⟨m, -, hx⟩ := Option.bind_eq_some_iff.mp hx
  obtain rfl := Option.some.inj hx
  have hcrlf : crlf.length = 2 := rfl
  have htext := eq_of_strstr hline
  rw [hcrlf, ← List.append_assoc] at htext
  rw [htext]
  exact in_of_around ha

theorem hostOffset?_eq (text : CString) :
    hostOffset? text = (aroundHost text).map (·.before.length + 1) := by
  have hcrlf : crlf.length = 2 := rfl
  unfold hostOffset? aroundHost
  cases read text with
  | none => rfl
  | some x =>
    rw [Option.bind_some, Option.bind_some, ← hostOffset_eq_around, List.length_append, hcrlf]

/-- There is a path where there is a host. -/
theorem exists_path_of_aroundHost {text : CString} {a : Around} (h : aroundHost text = some a) :
    ∃ n, strchr ' ' text = some n ∧ pathOffset text = some (n + 1) := by
  obtain ⟨x, hx, -⟩ := Option.bind_eq_some_iff.mp h
  obtain ⟨_, -, hread⟩ := Option.bind_eq_some_iff.mp hx
  obtain ⟨n, hn, -⟩ := Option.bind_eq_some_iff.mp hread
  refine ⟨n, hn, ?_⟩
  rw [pathOffset, hx, hn]
  rfl

/-! ## The two searches -/

/-- A string is cut where a null is put into it. -/
theorem stringFrom_set {raw : List Char} {i k : ℕ} (h : i ≤ k) :
    stringFrom (raw.set k '\x00') i = (stringFrom raw i).take (k - i) := by
  rw [stringFrom, List.drop_set, if_neg (Nat.not_lt.mpr h), takeWhile_ne_set, stringFrom]

/-- One that begins behind the null is left as it is. -/
theorem stringFrom_set_of_lt {raw : List Char} {i k : ℕ} (h : k < i) :
    stringFrom (raw.set k '\x00') i = stringFrom raw i := by
  rw [stringFrom, List.drop_set_of_lt h, stringFrom]

theorem strchr_of_notMem {c : Char} {s : CString} (h : c ∉ s) : strchr c s = none :=
  List.findIdx?_eq_none_iff.mpr fun _ hx => decide_eq_false fun heq => h (heq ▸ hx)

theorem strchr_append {c : Char} {s : CString} (t : CString) (h : c ∉ s) :
    strchr c (s ++ c :: t) = some s.length := by
  have hnone : s.findIdx? (fun x => decide (x = c)) = none := strchr_of_notMem h
  rw [strchr, List.findIdx?_append, hnone, Option.none_or, List.findIdx?_cons]
  simp

/-- The text from the first space to the second. -/
def between (s : CString) : CString := (s.dropWhile (· ≠ ' ')).tail.takeWhile (· ≠ ' ')

/-- A text with a space, and one behind it. -/
theorem exists_between {s : CString} (h : ' ' ∈ s) (t : CString) : ∃ u w rest,
    s ++ ' ' :: t = u ++ ' ' :: (w ++ ' ' :: rest) ∧ ' ' ∉ u ∧ ' ' ∉ w ∧ between s = w ∧
      u.length + 1 + w.length ≤ s.length := by
  obtain ⟨u, more, rfl, hu⟩ := List.eq_append_cons_of_mem h
  have hdrop : (u ++ ' ' :: more).dropWhile (· ≠ ' ') = ' ' :: more := by
    have hall : ∀ x ∈ u, decide (x ≠ ' ') = true := fun x hx =>
      decide_eq_true fun heq => hu (heq ▸ hx)
    rw [List.dropWhile_append_of_pos hall]
    simp
  have hbetween : between (u ++ ' ' :: more) = more.takeWhile (· ≠ ' ') := by
    rw [between, hdrop, List.tail_cons]
  by_cases hmore : ' ' ∈ more
  · obtain ⟨w, rest, rfl, hw⟩ := List.eq_append_cons_of_mem hmore
    rw [takeWhile_ne_cons hw] at hbetween
    exact ⟨u, w, rest ++ ' ' :: t, by simp, hu, hw, hbetween, by simp; omega⟩
  · have hwhole : more.takeWhile (· ≠ ' ') = more := by
      have := takeWhile_ne_append hmore []
      simpa using this
    exact ⟨u, more, t, by simp, hu, hmore, hbetween.trans hwhole, by simp; omega⟩

section
variable {raw : List Char} {a : Around} {path : ℕ}

/-- The strings at the two pointers. -/
theorem stringFrom_of_eq {s t : CString} (h : stringFrom raw 0 = s ++ ' ' :: t) :
    stringFrom raw (s.length + 1) = t := by
  have hlength : s.length + 1 ≤ (stringFrom raw 0).length := by
    rw [h, List.length_append, List.length_cons]
    omega
  rw [← Nat.zero_add (s.length + 1), stringFrom_add hlength, h, ← List.drop_drop, List.drop_left,
    List.drop_one, List.tail_cons]

/-- **A host behind the first space** is found as it is, and so is the path. -/
theorem target_of_mem (ha : a.In (stringFrom raw 0)) (hspace : ' ' ∈ a.before)
    (hpath : strchr ' ' (stringFrom raw 0) = some path) :
    target raw (path + 1) (a.before.length + 1) = some (a.value, between a.before) := by
  obtain ⟨u, w, rest, hbefore, hu, hw, hbetween, hlength⟩ := exists_between hspace (a.value ++ a.after)
  have htext := ha.eq.trans hbefore
  rw [htext, strchr_append _ hu] at hpath
  obtain rfl := Option.some.inj hpath
  have hhost := stringFrom_of_eq ha.eq
  have hpathString := stringFrom_of_eq htext
  have hhost' : stringFrom (raw.set (u.length + 1 + w.length) '\x00') (a.before.length + 1)
      = a.value ++ a.after := by rw [stringFrom_set_of_lt (by omega), hhost]
  rw [target, hpathString, strchr_append _ hw]
  simp only [bind, Option.bind_some, hhost', ha.lineEnd]
  rw [stringFrom_set (by omega), hhost', stringFrom_set (by omega), stringFrom_set (by omega),
    hpathString, hbetween, Nat.add_sub_cancel_left, Nat.add_sub_cancel_left, List.take_left,
    List.take_left, List.take_of_length_le (by omega)]

/-- A pointer that is both: the null that ends the path is put into the host's string first. -/
theorem target_self {i : ℕ} {s : CString} (h : stringFrom raw i = s) :
    target raw i i = (strchr ' ' s).bind fun n => (strstr crlf (s.take n)).map fun m =>
      ((s.take n).take m, (s.take n).take m) := by
  rw [target, h]
  cases strchr ' ' s with
  | none => rfl
  | some n =>
    have hcut : stringFrom (raw.set (i + n) '\x00') i = s.take n := by
      rw [stringFrom_set (by omega), h, Nat.add_sub_cancel_left]
    simp only [bind, Option.bind_some, hcut]
    cases strstr crlf (s.take n) with
    | none => rfl
    | some m =>
      rw [Option.bind_some, stringFrom_set (by omega), hcut, Nat.add_sub_cancel_left]
      rfl

/-- **The first space behind a host** is in its value, behind its line, or not there. -/
theorem Around.In.strchr_cases {text : CString} (ha : a.In text) :
    (' ' ∈ a.value ∧ ∃ n < a.value.length, strchr ' ' (a.value ++ a.after) = some n) ∨
      (' ' ∉ a.value ∧ ' ' ∈ a.after ∧
        ∃ n, a.value.length + 2 ≤ n ∧ strchr ' ' (a.value ++ a.after) = some n) ∨
      (' ' ∉ a.value ∧ ' ' ∉ a.after ∧ strchr ' ' (a.value ++ a.after) = none) := by
  by_cases hvalue : ' ' ∈ a.value
  · obtain ⟨v, v', hv, hplain⟩ := List.eq_append_cons_of_mem hvalue
    refine Or.inl ⟨hvalue, v.length, ?_, ?_⟩
    · rw [hv, List.length_append, List.length_cons]
      omega
    · rw [hv, List.append_assoc, List.cons_append]
      exact strchr_append _ hplain
  · by_cases hafter : ' ' ∈ a.after
    · obtain ⟨rest, hrest⟩ := ha.after
      have hmore : ' ' ∈ rest := by
        rw [← hrest] at hafter
        exact (List.mem_append.mp hafter).resolve_left (by decide)
      obtain ⟨t, t', rfl, ht⟩ := List.eq_append_cons_of_mem hmore
      have hplain : ' ' ∉ a.value ++ (crlf ++ t) := by
        simp only [List.mem_append, not_or]
        exact ⟨hvalue, by decide, ht⟩
      refine Or.inr (Or.inl ⟨hvalue, hafter, (a.value ++ (crlf ++ t)).length, ?_, ?_⟩)
      · have hcrlf : crlf.length = 2 := rfl
        simp only [List.length_append, hcrlf]
        omega
      · rw [← strchr_append t' hplain, ← hrest]
        simp only [List.append_assoc]
    · exact Or.inr (Or.inr ⟨hvalue, hafter, strchr_of_notMem fun hmem =>
        (List.mem_append.mp hmem).elim hvalue hafter⟩)

/-- A host behind the first space itself is the path, too: it is found when it has no space, and another
follows. -/
theorem target_of_notMem (ha : a.In (stringFrom raw 0)) (hspace : ' ' ∉ a.before)
    (hpath : strchr ' ' (stringFrom raw 0) = some path) :
    target raw (path + 1) (a.before.length + 1)
      = if ' ' ∉ a.value ∧ ' ' ∈ a.after then some (a.value, a.value) else none := by
  have hcrlf : crlf.length = 2 := rfl
  rw [ha.eq, strchr_append _ hspace] at hpath
  obtain rfl := Option.some.inj hpath
  rw [target_self (stringFrom_of_eq ha.eq)]
  obtain ⟨hvalue, n, hn, hsearch⟩ | ⟨hvalue, hafter, n, hn, hsearch⟩ | ⟨hvalue, hafter, hsearch⟩ :=
    ha.strchr_cases
  · -- The null hides the line end.
    rw [if_neg fun h => h.1 hvalue, hsearch, Option.bind_some, strstr_take ha.lineEnd,
      if_neg (by omega)]
    rfl
  · rw [if_pos ⟨hvalue, hafter⟩, hsearch, Option.bind_some, strstr_take ha.lineEnd,
      if_pos (by omega), Option.map_some, List.take_take, Nat.min_eq_left (by omega), List.take_left]
  · rw [if_neg fun h => hafter h.2, hsearch]
    rfl

end

/-! ## What the handler finds -/

/-- No line end. -/
def Clean (s : CString) : Prop := '\r' ∉ s ∧ '\n' ∉ s

/-- The answer with this host and this path is sent. -/
def Located (host path : CString) : Prop :=
  host.length + path.length + (redirect.length + 1) - 5 < 256

/-- **Both searches find their targets**, and nothing with a line end is put into the answer. -/
def Found (raw : List Char) (path host : ℕ) : Prop :=
  ∃ found, target raw path host = some found ∧
    (Located found.1 found.2 → Clean found.1 ∧ Clean found.2)

namespace Session

/-- What the handler receives in a call. -/
def piece (size : ℕ) (x : Session) (n : ℕ) : CString :=
  x.unread.take (min (n + 1) (x.connection.space size))

/-- The request, once it is parsed, if the handler receives something. -/
def parsed (size : ℕ) (x : Session) (n : ℕ) : Option Request :=
  if x.connection.registered ∧ x.unread ≠ [] ∧ 0 < x.connection.space size then
    some (parseRequest { x.connection.request with
      raw := x.connection.request.raw ++ x.piece size n })
  else none

/-- **A request that is found complete is answered to where it should.** -/
def Answers (size : ℕ) (x : Session) (n : ℕ) : Prop :=
  ∀ r ∈ x.parsed size n, r.end.isSome → ∀ path ∈ r.path, ∀ host ∈ r.host, Found r.raw path host

/-- The text received by the end of a call. -/
def text (size : ℕ) (x : Session) (n : ℕ) : CString :=
  stringFrom (x.connection.request.raw ++ x.piece size n) 0

end Session

/-- **Where the spaces stand in a request**: two before the host's value, with no line end between them
nor in the value; or the first one just before the value, and the second behind its line. -/
def Around.Orderly (a : Around) : Prop :=
  if ' ' ∈ a.before then
    Located a.value (between a.before) → Clean a.value ∧ Clean (between a.before)
  else (' ' ∉ a.value ∧ ' ' ∈ a.after) ∧ (Located a.value a.value → Clean a.value)

def Orderly (text : CString) : Prop := complete text → ∀ a ∈ aroundHost text, a.Orderly

/-- The text a call finds is orderly, if it receives any. -/
def Session.Orderly (size : ℕ) (x : Session) (n : ℕ) : Prop :=
  (x.connection.registered ∧ x.unread ≠ [] ∧ 0 < x.connection.space size) →
    Server.Orderly (x.text size n)

/-- The handler waits for the rest of what it has, as it would had it received that at once. -/
def Session.Waiting (x : Session) : Prop :=
  x.connection.registered → x.connection.request.end = none ∧ Fresh x.connection.request

theorem found_iff {raw : List Char} {a : Around} {path : ℕ} (ha : a.In (stringFrom raw 0))
    (hpath : strchr ' ' (stringFrom raw 0) = some path) :
    Found raw (path + 1) (a.before.length + 1) ↔ a.Orderly := by
  unfold Found Around.Orderly
  by_cases hspace : ' ' ∈ a.before
  · rw [if_pos hspace, target_of_mem ha hspace hpath]
    simp
  · rw [if_neg hspace, target_of_notMem ha hspace hpath]
    by_cases hspaces : ' ' ∉ a.value ∧ ' ' ∈ a.after
    · simp [hspaces]
    · rw [if_neg hspaces]
      exact iff_of_false (fun h => by simp at h) fun h => hspaces h.1

/-- A request that the text received has set. -/
theorem Fresh.found_iff {r : Request} (hr : Fresh r)
    (hend : r.end.isSome = complete (stringFrom r.raw 0)) :
    (r.end.isSome → ∀ path ∈ r.path, ∀ host ∈ r.host, Found r.raw path host) ↔
      Orderly (stringFrom r.raw 0) := by
  unfold Orderly
  rw [hend, hr.path, hr.host, hostOffset?_eq]
  refine forall_congr' fun _ => ⟨fun h a ha => ?_, fun h path hpath host hhost => ?_⟩
  · obtain ⟨n, hn, hpath⟩ := exists_path_of_aroundHost ha
    exact (Server.found_iff (in_of_aroundHost ha) hn).mp (h _ hpath _ (by rw [ha]; rfl))
  · obtain ⟨a, ha, rfl⟩ := Option.map_eq_some_iff.mp hhost
    obtain ⟨n, hn, hpath'⟩ := exists_path_of_aroundHost ha
    obtain rfl := Option.some.inj (hpath'.symm.trans hpath)
    exact (Server.found_iff (in_of_aroundHost ha) hn).mpr (h a ha)

section
variable {size n : ℕ} {x y : Session}

/-- What a call has received and parsed. -/
theorem Session.Waiting.parsed (hx : x.Waiting) {r : Request} (h : x.parsed size n = some r) :
    Fresh r ∧ stringFrom r.raw 0 = x.text size n ∧ r.end.isSome = complete (x.text size n) := by
  unfold Session.parsed at h
  split_ifs at h with hreceives
  obtain ⟨hend, hfresh⟩ := hx hreceives.1
  obtain rfl := Option.some.inj h
  have hsets := sets_parseRequest { x.connection.request with
    raw := x.connection.request.raw ++ x.piece size n }
  refine ⟨hfresh.parseRequest _, by rw [hsets.raw, Session.text], ?_⟩
  rw [hsets.end, hend]
  exact Bool.false_or _

/-- **A call answers as it should exactly when the text is orderly.** -/
theorem Session.answers_iff_orderly (hx : x.Waiting) : x.Answers size n ↔ x.Orderly size n := by
  unfold Session.Answers Session.Orderly
  by_cases hreceives : x.connection.registered ∧ x.unread ≠ [] ∧ 0 < x.connection.space size
  · have hparsed : x.parsed size n = some _ := if_pos hreceives
    obtain ⟨hfresh, htext, hend⟩ := hx.parsed hparsed
    rw [hparsed, ← htext] at *
    exact ⟨fun h _ => (hfresh.found_iff hend).mp (h _ rfl),
      fun h r hr => Option.some.inj hr ▸ (hfresh.found_iff hend).mpr (h hreceives)⟩
  · have hnone : x.parsed size n = none := if_neg hreceives
    rw [hnone]
    exact iff_of_true nofun fun h => absurd h hreceives

theorem Session.waiting_of_closed (h : x.connection.registered = false) : x.Waiting := fun hopen => by
  rw [h] at hopen
  cases hopen

/-- A request that was answered is forgotten, if the connection stays. -/
theorem Session.waiting_of_answer {c : Connection} {host path : CString}
    (h : c.answer host path = some x.connection) : x.Waiting := by
  unfold Connection.answer at h
  dsimp only at h
  by_cases hlength : host.length + path.length + (redirect.length + 1) - 5 < 256
  · rw [if_pos hlength] at h
    obtain ⟨response, -, hanswer⟩ := Option.map_eq_some_iff.mp h
    by_cases hkeeps : c.request.keepAlive
    · rw [if_pos hkeeps] at hanswer
      intro _
      rw [← hanswer]
      exact ⟨rfl, fresh_init⟩
    · rw [if_neg hkeeps] at hanswer
      exact waiting_of_closed (hanswer ▸ rfl)
  · rw [if_neg hlength] at h
    exact waiting_of_closed (Option.some.inj h ▸ rfl)

/-- **What a call leaves waits for more.** -/
theorem Session.Waiting.call (hx : x.Waiting) (h : x.call size n = some y) : y.Waiting := by
  unfold Session.call at h
  by_cases hopen : x.connection.registered ∧ x.unread ≠ []
  · rw [if_pos hopen] at h
    obtain ⟨d, hd, rfl⟩ := Option.map_eq_some_iff.mp h
    obtain ⟨hend, hfresh⟩ := hx hopen.1
    rcases Connection.ioHandler_cases hd with (rfl | ⟨r, rfl⟩) | ⟨piece, r, hpiece, hr, hd'⟩
    · exact waiting_of_closed rfl
    · exact waiting_of_closed rfl
    · rcases hd' with ⟨hrest, rfl⟩ | ⟨_, _, t, -, -, -, hanswer⟩
      · exact fun _ => ⟨hrest, hr ▸ hfresh.parseRequest piece⟩
      · exact waiting_of_answer hanswer
  · rw [if_neg hopen] at h
    exact Option.some.inj h ▸ hx

end

/-- **In every run, every request is answered to where it should exactly when every text is orderly.** -/
theorem forall_answers_iff (size : ℕ) (stream : CString) (cuts : List ℕ) :
    (∀ v ∈ visits (Session.call size) ⟨{}, stream⟩ cuts, v.1.Answers size v.2) ↔
      ∀ v ∈ visits (Session.call size) ⟨{}, stream⟩ cuts, v.1.Orderly size v.2 :=
  forall_visits_iff (I := Session.Waiting) (P := Session.Answers size) (C := Session.Orderly size)
    (fun _ _ hx => Session.answers_iff_orderly hx) (fun _ _ _ hx _ h => hx.call h) _ _
    fun _ => ⟨rfl, fresh_init⟩

/-- A request received at once is orderly, if it is answered as it should be. -/
theorem orderly_of_answers {text : CString} {n : ℕ} {x : Reading} {a : Around}
    (h : ∀ v ∈ visits (Session.call 512) ⟨{}, text⟩ [n], v.1.Answers 512 v.2)
    (hreceives : text ≠ []) (htext : Session.text 512 ⟨{}, text⟩ n = text) (hread : read text = some x)
    (hrest : x.rest = crlf) (ha : around (x.first ++ crlf) x.lines x.rest = some a) : a.Orderly := by
  have hwaiting : Session.Waiting ⟨{}, text⟩ := fun _ => ⟨rfl, fresh_init⟩
  have hanswers : Session.Answers 512 ⟨{}, text⟩ n := h _ List.mem_cons_self
  have hspace : 0 < Connection.space 512 {} := by decide
  have horderly := (Session.answers_iff_orderly hwaiting).mp hanswers ⟨rfl, hreceives, hspace⟩
  rw [htext] at horderly
  refine horderly ?_ a ?_
  · rw [complete, hread]
    exact decide_eq_true hrest
  · rw [aroundHost, hread]
    exact ha

/-- Lines that are read one by one. -/
theorem read_of_readLines {text : CString} {n m : ℕ} {block : List Line × CString}
    (hline : strstr crlf text = some n) (hspace : strchr ' ' text = some m)
    (hblock : readLines (text.drop (n + 2)) = block) :
    read text = some ⟨text.take n, block.1, block.2⟩ := by
  simp only [read, hline, hspace, hblock, bind, Option.bind_some]

theorem length_redirect : redirect.length = 118 := by
  have hmoved : "HTTP/1.1 301 Moved Permanently\r\n".toList.length = 32 := rfl
  have hempty : "Content-Length: 0\r\n".toList.length = 19 := rfl
  have htype : "Content-Type: text/html; charset=UTF-8\r\n".toList.length = 40 := rfl
  have hlocation : "Location: https://%s/%s\r\n\r\n".toList.length = 27 := rfl
  unfold redirect statusLines
  rw [List.length_append, List.length_append, List.length_append]
  rw [hmoved, hempty, htype, hlocation]

/-- **A request of which only the host has spaces has a null pointer written through**, and one without
a space in its first line has line ends put into the answer. -/
theorem not_forall_answers_spaces :
    ¬ (∀ v ∈ visits (Session.call 512) ⟨{}, "GET\r\nHost: a b\r\n\r\n".toList⟩ [17],
        v.1.Answers 512 v.2) ∧
    ¬ (∀ v ∈ visits (Session.call 512) ⟨{}, "GET\r\nA: b\r\nHost: x\r\n\r\n".toList⟩ [21],
        v.1.Answers 512 v.2) := by
  have hempty : readLines crlf = ([], crlf) := readLines_of_none rfl
  refine ⟨fun h => ?_, fun h => ?_⟩
  · have hblock : readLines "Host: a b\r\n\r\n".toList = ([⟨"Host".toList, "a b".toList⟩], crlf) := by
      rw [readLines_of_some (show readLine _ = some (⟨"Host".toList, "a b".toList⟩, crlf) from rfl),
        hempty]
    have horderly := orderly_of_answers h (by decide) rfl (read_of_readLines rfl rfl hblock) rfl rfl
    unfold Around.Orderly at horderly
    rw [if_neg (by decide)] at horderly
    exact absurd horderly.1.1 (by decide)
  · have hlast : readLines "Host: x\r\n\r\n".toList = ([⟨"Host".toList, ['x']⟩], crlf) := by
      rw [readLines_of_some (show readLine _ = some (⟨"Host".toList, ['x']⟩, crlf) from rfl),
        hempty]
    have hblock : readLines "A: b\r\nHost: x\r\n\r\n".toList
        = ([⟨['A'], ['b']⟩, ⟨"Host".toList, ['x']⟩], crlf) := by
      rw [readLines_of_some (show readLine _ = some (⟨['A'], ['b']⟩, "Host: x\r\n\r\n".toList) from rfl),
        hlast]
    have horderly := orderly_of_answers h (by decide) rfl (read_of_readLines rfl rfl hblock) rfl rfl
    unfold Around.Orderly at horderly
    rw [if_pos (by decide)] at horderly
    have hlocated : Located ['x'] "b\r\nHost:".toList := by
      unfold Located
      rw [length_redirect]
      decide
    exact absurd (horderly hlocated).2.1 (by decide)

end Server
