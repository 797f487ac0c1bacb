import HtFirmware.Machinery.Text
import HtFirmware.Storage.Nvs

/-!
# Storage/Nonvolatile — the parameter table over the non-volatile store

Parameters are kept as strings in the store's namespace, which they share with the cryptographic
keys.  Each of the four operations looks its key up in the table first, but for the list, which walks
the table.

Over any history of calls the store is a map from the table's names to values (`lastValue`), and
nothing else in the namespace is read, written or erased (`behavesAsMap`).
-/

open Machinery

namespace Nvs

/-! ## The table -/

/-- An entry of the table; where there is a function to call after a set, it is
`gm_wifi_restart`. -/
structure Parameter where
  name : CString
  secret : Bool
  explanation : CString
  callAfterSet : Bool

/-- `gm_nonvolatile`, without the entry that ends it. -/
def gmNonvolatile : List Parameter :=
  [⟨"admin_password".toList, true, "The admin user password.\n".toList, false⟩,
    ⟨"callsign".toList, false, "Amateur Radio callsign.\n".toList, false⟩,
    ⟨"aprs_destination".toList, false,
      "Destination for APRS packets, usually WIDE1.\n".toList, false⟩,
    ⟨"ddns_basic_auth".toList, false, ("send HTTP basic authentication on the first " ++
      "transaction with the Dynamic DNS server.\n").toList, false⟩,
    ⟨"ddns_hostname".toList, false,
      "Hostname for this device to set in dynamic DNS.".toList, false⟩,
    ⟨"ddns_password".toList, true,
      "Password for secure access to the dynamic DNS host.".toList, false⟩,
    ⟨"ddns_provider".toList, false, "Name of the Dynamic DNS provider.".toList, false⟩,
    ⟨"ddns_token".toList, true, "secret token to set in dynamic DNS.".toList, false⟩,
    ⟨"ddns_username".toList, false,
      "User name for secure access to the dynamic DNS host.".toList, false⟩,
    ⟨"ssid".toList, false, "Name of the WiFi access point".toList, true⟩,
    ⟨"timezone".toList, false, ("Time zone, like PST8PDT, (see " ++
      "https://github.com/nayarsystems/posix_tz_db/blob/master/zones.csv)").toList, false⟩,
    ⟨"wifi_password".toList, true, "Password of the WiFi access point".toList, true⟩]

/-- The search of the table. -/
def parameter? (key : CString) : Option Parameter := gmNonvolatile.find? fun p => p.name = key

/-! ## The store -/

/-- `gm_nonvolatile_result_t`. -/
inductive NonvolatileResult where
  | error
  | notInParameterTable
  | normal
  | secret
  | notSet
  deriving DecidableEq

/-- `esp_err_to_name`. -/
def espErrToName : EspErr → CString
  | .ok => "ESP_OK".toList
  | .notFound => "ESP_ERR_NVS_NOT_FOUND".toList
  | .invalidLength => "ESP_ERR_NVS_INVALID_LENGTH".toList
  | .other => "ESP_FAIL".toList

/-- The namespace; the names handed to calls on it; whether a FLASH failure has been noted, and
warned of; the access points WiFi was told to connect to, with their passwords; and what was printed
on the console. -/
structure Store where
  nvs : CString → Option CString
  accesses : List CString := []
  flashFailure : EspErr := .ok
  warned : Bool := false
  connections : List (CString × CString) := []
  console : List CString := []

namespace Store

/-- `gm_printf`. -/
def print (s : Store) (text : CString) : Store := { s with console := s.console ++ [text] }

/-- `gm_flash_failure`, from the parameter functions; it warns once. -/
def gmFlashFailure (s : Store) (err : EspErr) : Store :=
  let s := if s.flashFailure = .ok then { s with flashFailure := err } else s
  if s.warned then s
  else
    { s.print ("FLASH memory: nvs: ".toList ++ espErrToName err ++ "\n".toList) with warned := true }

/-- `nvs_get_str`, into a buffer of `size` bytes. -/
def nvsGetStr (s : Store) (key : CString) (size : ℕ) : Except EspErr CString × Store :=
  (match s.nvs key with
    | none => .error .notFound
    | some value => if value.length < size then .ok value else .error .invalidLength,
   { s with accesses := s.accesses ++ [key] })

/-- `gm_wifi_restart`, the only function to call after a set: what it reads, and the connection it
makes.  `gm_wifi_stop`, which it begins with, touches no parameter; what becomes of the web server in it
is in `Web/Requests`. -/
def gmWifiRestart (s : Store) : Store :=
  let ssid := s.nvsGetStr "ssid".toList 33
  let password := ssid.2.nvsGetStr "wifi_password".toList 65
  match ssid.1, password.1 with
  | .ok name, .ok word =>
    if name ≠ [] ∧ word ≠ [] then
      { password.2 with connections := password.2.connections ++ [(name, word)] }
    else password.2
  | _, _ => password.2

/-- The call after a set. -/
def callAfterSet (s : Store) (p : Parameter) : Store :=
  if p.callAfterSet then s.gmWifiRestart else s

/-- A call of the list's coroutine. -/
structure Row where
  name : CString
  value : CString
  explanation : CString
  type : NonvolatileResult

/-- A call of the coroutine, which works on a state of its own and prints lines. -/
def call {α : Type} (s : Store) (coroutine : Row → α → α × List CString) (row : Row) (a : α) :
    α × Store :=
  let called := coroutine row a
  (called.1, { s with console := s.console ++ called.2 })

/-- `gm_nonvolatile_list`. -/
def gmNonvolatileList {α : Type} (coroutine : Row → α → α × List CString) :
    List Parameter → α → Store → α × Store
  | [], a, s => (a, s)
  | p :: ps, a, s =>
    let got := s.nvsGetStr p.name 1024
    match got.1 with
    | .ok value =>
      let called := got.2.call coroutine
        (if p.secret then ⟨p.name, [], p.explanation, .secret⟩
          else ⟨p.name, value, p.explanation, .normal⟩) a
      gmNonvolatileList coroutine ps called.1 called.2
    | .error .notFound =>
      let called := got.2.call coroutine ⟨p.name, [], p.explanation, .notSet⟩ a
      gmNonvolatileList coroutine ps called.1 called.2
    | .error err => gmNonvolatileList coroutine ps a (got.2.gmFlashFailure err)

/-- `gm_nonvolatile_get`: its result, and what it leaves in the buffer. -/
def gmNonvolatileGet (s : Store) (key : CString) (size : ℕ) :
    (NonvolatileResult × Option CString) × Store :=
  match parameter? key with
  | none => ((.notInParameterTable, none), s)
  | some p =>
    let got := s.nvsGetStr key size
    match got.1 with
    | .ok value => ((if p.secret then .secret else .normal, some value), got.2)
    | .error err =>
      ((.notSet, some []), if err ≠ .notFound then got.2.gmFlashFailure err else got.2)

/-- `gm_nonvolatile_set`, where the call of `nvs_set_str` comes out as `err`. -/
def gmNonvolatileSet (s : Store) (key value : CString) (err : EspErr) : NonvolatileResult × Store :=
  match parameter? key with
  | none => (.notInParameterTable, s)
  | some p =>
    let s := { s with accesses := s.accesses ++ [key] }
    if err ≠ .ok then (.error, s.gmFlashFailure err)
    else
      let s := { s with nvs := Function.update s.nvs key (some value) }
      (.normal, s.callAfterSet p)

/-- `gm_nonvolatile_erase`. -/
def gmNonvolatileErase (s : Store) (key : CString) : NonvolatileResult × Store :=
  match parameter? key with
  | none => (.notInParameterTable, s)
  | some p =>
    let s := { s with accesses := s.accesses ++ [key] }
    match s.nvs key with
    | none => (.notInParameterTable, s)
    | some _ =>
      let s := { s with nvs := Function.update s.nvs key none }
      (.normal, s.callAfterSet p)

end Store

/-! ## Histories -/

/-- A call, with how the store's own call comes out where that is open. -/
inductive Op where
  | get (key : CString) (size : ℕ)
  | set (key value : CString) (err : EspErr)
  | erase (key : CString)
  | list

/-- What a call comes back with. -/
inductive Answer where
  | got (result : NonvolatileResult) (buffer : Option CString)
  | done (result : NonvolatileResult)
  | listed (rows : List Store.Row)

/-- The coroutine of a list here, which keeps the rows. -/
def collect (row : Store.Row) (rows : List Store.Row) : List Store.Row × List CString :=
  (rows ++ [row], [])

def Store.step (s : Store) : Op → Answer × Store
  | .get key size => let r := s.gmNonvolatileGet key size; (.got r.1.1 r.1.2, r.2)
  | .set key value err => let r := s.gmNonvolatileSet key value err; (.done r.1, r.2)
  | .erase key => let r := s.gmNonvolatileErase key; (.done r.1, r.2)
  | .list => let r := Store.gmNonvolatileList collect gmNonvolatile [] s; (.listed r.1, r.2)

/-- The store after a history of calls. -/
def Store.run (s : Store) (ops : List Op) : Store := ops.foldl (fun s op => (s.step op).2) s

/-! ## The map it is meant to be -/

/-- The value of a key after one call. -/
def Op.value (key : CString) (value : Option CString) : Op → Option CString
  | .set k v err => if k = key ∧ err = .ok then some v else value
  | .erase k => if k = key then none else value
  | _ => value

/-- The value of a key after a history: what the last set or erase of that key left. -/
def lastValue (value : Option CString) (key : CString) (ops : List Op) : Option CString :=
  ops.foldl (fun value op => op.value key value) value

/-- The row the list has for a parameter with a value. -/
def row? (p : Parameter) : Option CString → Option Store.Row
  | none => some ⟨p.name, [], p.explanation, .notSet⟩
  | some value =>
    if value.length < 1024 then
      some (if p.secret then ⟨p.name, [], p.explanation, .secret⟩
        else ⟨p.name, value, p.explanation, .normal⟩)
    else none

/-- What a call is to come back with, over a map from names to values. -/
def answer (values : CString → Option CString) : Op → Answer
  | .get key size =>
    match parameter? key, values key with
    | none, _ => .got .notInParameterTable none
    | some _, none => .got .notSet (some [])
    | some p, some value =>
      if value.length < size then .got (if p.secret then .secret else .normal) (some value)
      else .got .notSet (some [])
  | .set key _ err =>
    match parameter? key with
    | none => .done .notInParameterTable
    | some _ => .done (if err = .ok then .normal else .error)
  | .erase key =>
    match parameter? key, values key with
    | some _, some _ => .done .normal
    | _, _ => .done .notInParameterTable
  | .list => .listed (gmNonvolatile.filterMap fun p => row? p (values p.name))

/-! ## One call -/

namespace Store

@[simp] theorem nvs_gmFlashFailure (s : Store) (err : EspErr) : (s.gmFlashFailure err).nvs = s.nvs := by
  unfold gmFlashFailure print
  dsimp only
  split_ifs <;> rfl

@[simp] theorem accesses_gmFlashFailure (s : Store) (err : EspErr) :
    (s.gmFlashFailure err).accesses = s.accesses := by
  unfold gmFlashFailure print
  dsimp only
  split_ifs <;> rfl

@[simp] theorem nvs_gmWifiRestart (s : Store) : s.gmWifiRestart.nvs = s.nvs := by
  unfold gmWifiRestart
  dsimp only
  split
  · split_ifs <;> rfl
  · rfl

@[simp] theorem nvs_callAfterSet (s : Store) (p : Parameter) : (s.callAfterSet p).nvs = s.nvs := by
  unfold callAfterSet
  split_ifs
  · exact nvs_gmWifiRestart s
  · rfl

theorem accesses_gmWifiRestart (s : Store) : s.gmWifiRestart.accesses
    = s.accesses ++ ["ssid".toList, "wifi_password".toList] := by
  rw [← List.singleton_append, ← List.append_assoc]
  unfold gmWifiRestart
  dsimp only
  split
  · split_ifs <;> rfl
  · rfl

/-- The call after a set reads names of the table. -/
theorem mem_accesses_callAfterSet {s : Store} {p : Parameter} {name : CString}
    (hname : name ∈ (s.callAfterSet p).accesses) :
    name ∈ s.accesses ∨ (parameter? name).isSome := by
  unfold callAfterSet at hname
  split_ifs at hname
  · rw [accesses_gmWifiRestart] at hname
    obtain hname | hread := List.mem_append.mp hname
    · exact Or.inl hname
    · have htable : ∀ name ∈ ["ssid".toList, "wifi_password".toList], (parameter? name).isSome := by
        decide
      exact Or.inr (htable name hread)
  · exact Or.inl hname

/-- What reading a parameter's string comes to. -/
theorem nvsGetStr_cases (s : Store) (key : CString) (size : ℕ) :
    s.nvs key = none ∧ (s.nvsGetStr key size).1 = .error .notFound ∨
      ∃ value, s.nvs key = some value ∧
        (value.length < size ∧ (s.nvsGetStr key size).1 = .ok value ∨
          ¬ value.length < size ∧ (s.nvsGetStr key size).1 = .error .invalidLength) := by
  unfold nvsGetStr
  cases s.nvs key with
  | none => exact Or.inl ⟨rfl, rfl⟩
  | some value =>
    refine Or.inr ⟨value, rfl, ?_⟩
    by_cases h : value.length < size
    · exact Or.inl ⟨h, if_pos h⟩
    · exact Or.inr ⟨h, if_neg h⟩

/-- The list reads the names it walks, changes nothing, and makes a call for each value it can
read. -/
theorem gmNonvolatileList_spec {α : Type} (coroutine : Row → α → α × List CString) :
    ∀ (ps : List Parameter) (a : α) (s : Store),
      (gmNonvolatileList coroutine ps a s).1
          = (ps.filterMap fun p => row? p (s.nvs p.name)).foldl (fun a row => (coroutine row a).1) a ∧
        (gmNonvolatileList coroutine ps a s).2.nvs = s.nvs ∧
        (gmNonvolatileList coroutine ps a s).2.accesses = s.accesses ++ ps.map Parameter.name := by
  intro ps
  induction ps with
  | nil => exact fun a s => ⟨rfl, rfl, (List.append_nil _).symm⟩
  | cons p ps ih =>
    intro a s
    have hnames : s.accesses ++ List.map Parameter.name (p :: ps)
        = (s.accesses ++ [p.name]) ++ ps.map Parameter.name := by
      rw [List.map_cons, List.append_assoc, List.singleton_append]
    rw [hnames]
    obtain ⟨hv, hg⟩ | ⟨value, hv, ⟨hlt, hg⟩ | ⟨hge, hg⟩⟩ := nvsGetStr_cases s p.name 1024
    · simp only [gmNonvolatileList, hg, hv, row?, List.filterMap_cons, List.foldl_cons]
      exact ih _ _
    · simp only [gmNonvolatileList, hg, hv, row?, if_pos hlt, List.filterMap_cons, List.foldl_cons]
      exact ih _ _
    · have hfailed := ih a ((s.nvsGetStr p.name 1024).2.gmFlashFailure .invalidLength)
      simp only [nvs_gmFlashFailure, accesses_gmFlashFailure] at hfailed
      simp only [gmNonvolatileList, hg, hv, row?, if_neg hge, List.filterMap_cons]
      exact hfailed

end Store

/-- The names of the table are found in it. -/
theorem parameter?_name {p : Parameter} (hp : p ∈ gmNonvolatile) : (parameter? p.name).isSome := by
  rw [parameter?, List.find?_isSome]
  exact ⟨p, hp, decide_eq_true rfl⟩

/-- What the search finds. -/
theorem mem_of_parameter? {key : CString} {p : Parameter} (hkey : parameter? key = some p) :
    p ∈ gmNonvolatile ∧ p.name = key :=
  ⟨List.mem_of_find?_eq_some hkey, by simpa only [decide_eq_true_eq] using List.find?_some hkey⟩

theorem foldl_collect : ∀ rows kept : List Store.Row,
    rows.foldl (fun kept row => (collect row kept).1) kept = kept ++ rows := by
  intro rows
  induction rows with
  | nil => exact fun kept => (List.append_nil kept).symm
  | cons row rows ih =>
    intro kept
    rw [List.foldl_cons, ih, collect, List.append_assoc, List.singleton_append]

/-- **What a call does**: it answers as the map would, changes it as it should and nothing else, and
touches names of the table only. -/
structure Performs (s : Store) (op : Op) (r : Answer × Store) : Prop where
  answer : r.1 = answer s.nvs op
  nvs : ∀ name, r.2.nvs name
    = if (parameter? name).isSome then op.value name (s.nvs name) else s.nvs name
  accesses : ∀ name ∈ r.2.accesses, name ∈ s.accesses ∨ (parameter? name).isSome

/-- A call on one parameter touches its name. -/
theorem mem_accesses_concat {s : Store} {key : CString} {p : Parameter}
    (hkey : parameter? key = some p) : ∀ name ∈ s.accesses ++ [key],
    name ∈ s.accesses ∨ (parameter? name).isSome := by
  intro name hname
  obtain hname | hname := List.mem_append.mp hname
  · exact Or.inl hname
  · rw [List.mem_singleton.mp hname, hkey]
    exact Or.inr rfl

/-- A call that leaves the values of the table's names. -/
theorem nvs_of_same {s t : Store} {op : Op} (ht : t.nvs = s.nvs)
    (hop : ∀ name, (parameter? name).isSome → op.value name (s.nvs name) = s.nvs name) (name : CString) :
    t.nvs name = if (parameter? name).isSome then op.value name (s.nvs name) else s.nvs name := by
  rw [ht]
  split_ifs with hname
  · exact (hop name hname).symm
  · rfl

/-- A call that changes that of one of them. -/
theorem nvs_of_update {s t : Store} {op : Op} {key : CString} {p : Parameter}
    (hkey : parameter? key = some p) {value : Option CString}
    (ht : t.nvs = Function.update s.nvs key value) (hself : op.value key (s.nvs key) = value)
    (hother : ∀ name, name ≠ key → op.value name (s.nvs name) = s.nvs name) (name : CString) :
    t.nvs name = if (parameter? name).isSome then op.value name (s.nvs name) else s.nvs name := by
  rw [ht]
  obtain rfl | hname := eq_or_ne name key
  · rw [Function.update_self, hkey, if_pos Option.isSome_some, hself]
  · rw [Function.update_of_ne hname, hother name hname, ite_self]

/-- What is set is a value of its own key. -/
theorem Op.value_set_of_ne {key name value : CString} {err : EspErr} (h : name ≠ key)
    (old : Option CString) : (Op.set key value err).value name old = old :=
  if_neg fun hset => h hset.1.symm

theorem Op.value_erase_of_ne {key name : CString} (h : name ≠ key) (old : Option CString) :
    (Op.erase key).value name old = old := if_neg fun heq => h heq.symm

/-- A name of the table is none that is not in it. -/
theorem ne_of_parameter? {key name : CString} (hkey : parameter? key = none)
    (hname : (parameter? name).isSome) : name ≠ key := by
  rintro rfl
  rw [hkey] at hname
  cases hname

theorem performs_get (s : Store) (key : CString) (size : ℕ) :
    Performs s (.get key size) (s.step (.get key size)) := by
  simp only [Store.step, Store.gmNonvolatileGet]
  cases hkey : parameter? key with
  | none =>
    refine ⟨?_, fun name => (ite_self _).symm, fun name hname => Or.inl hname⟩
    simp only [answer, hkey]
  | some p =>
    obtain ⟨hv, hg⟩ | ⟨value, hv, ⟨hlt, hg⟩ | ⟨hge, hg⟩⟩ := Store.nvsGetStr_cases s key size
    · simp only [hg, ne_eq, not_true_eq_false, if_false]
      refine ⟨?_, fun name => (ite_self _).symm, mem_accesses_concat hkey⟩
      simp only [answer, hkey, hv]
    · simp only [hg]
      refine ⟨?_, fun name => (ite_self _).symm, mem_accesses_concat hkey⟩
      simp only [answer, hkey, hv, if_pos hlt]
    · have herr : EspErr.invalidLength ≠ .notFound := nofun
      simp only [hg, if_pos herr]
      refine ⟨?_, fun name => ?_, ?_⟩
      · simp only [answer, hkey, hv, if_neg hge]
      · rw [Store.nvs_gmFlashFailure]
        exact (ite_self _).symm
      · rw [Store.accesses_gmFlashFailure]
        exact mem_accesses_concat hkey

theorem performs_set (s : Store) (key value : CString) (err : EspErr) :
    Performs s (.set key value err) (s.step (.set key value err)) := by
  simp only [Store.step, Store.gmNonvolatileSet]
  cases hkey : parameter? key with
  | none =>
    refine ⟨?_, nvs_of_same rfl fun name hname => ?_, fun name hname => Or.inl hname⟩
    · simp only [answer, hkey]
    · exact Op.value_set_of_ne (ne_of_parameter? hkey hname) _
  | some p =>
    dsimp only
    by_cases herr : err = .ok
    · rw [if_neg (not_not.mpr herr)]
      refine ⟨?_, nvs_of_update hkey (Store.nvs_callAfterSet _ p) (if_pos ⟨rfl, herr⟩)
        (fun name hname => Op.value_set_of_ne hname _), fun name hname => ?_⟩
      · simp only [answer, hkey, if_pos herr]
      · obtain hname | htable := Store.mem_accesses_callAfterSet hname
        · exact mem_accesses_concat hkey name hname
        · exact Or.inr htable
    · rw [if_pos herr]
      refine ⟨?_, nvs_of_same (Store.nvs_gmFlashFailure _ err) fun name _ => if_neg fun hset =>
        herr hset.2, ?_⟩
      · simp only [answer, hkey, if_neg herr]
      · rw [Store.accesses_gmFlashFailure]
        exact mem_accesses_concat hkey

theorem performs_erase (s : Store) (key : CString) :
    Performs s (.erase key) (s.step (.erase key)) := by
  simp only [Store.step, Store.gmNonvolatileErase]
  cases hkey : parameter? key with
  | none =>
    refine ⟨?_, nvs_of_same rfl fun name hname => ?_, fun name hname => Or.inl hname⟩
    · simp only [answer, hkey]
    · exact Op.value_erase_of_ne (ne_of_parameter? hkey hname) _
  | some p =>
    dsimp only
    cases hv : s.nvs key with
    | none =>
      refine ⟨?_, nvs_of_same rfl fun name _ => ?_, mem_accesses_concat hkey⟩
      · simp only [answer, hkey, hv]
      · obtain rfl | hname := eq_or_ne name key
        · rw [hv]
          exact if_pos rfl
        · exact Op.value_erase_of_ne hname _
    | some value =>
      refine ⟨?_, nvs_of_update hkey (Store.nvs_callAfterSet _ p) (if_pos rfl)
        (fun name hname => Op.value_erase_of_ne hname _), fun name hname => ?_⟩
      · simp only [answer, hkey, hv]
      · obtain hname | htable := Store.mem_accesses_callAfterSet hname
        · exact mem_accesses_concat hkey name hname
        · exact Or.inr htable

theorem performs_list (s : Store) : Performs s .list (s.step .list) := by
  obtain ⟨hrows, hnvs, haccesses⟩ := Store.gmNonvolatileList_spec collect gmNonvolatile [] s
  refine ⟨?_, fun name => ?_, fun name hname => ?_⟩
  · simp only [Store.step, answer]
    rw [hrows, foldl_collect, List.nil_append]
  · exact (congrFun hnvs name).trans (ite_self _).symm
  · obtain hname | hname := List.mem_append.mp (haccesses ▸ hname)
    · exact Or.inl hname
    · obtain ⟨p, hp, rfl⟩ := List.mem_map.mp hname
      exact Or.inr (parameter?_name hp)

theorem step_performs (s : Store) (op : Op) : Performs s op (s.step op) := by
  cases op with
  | get key size => exact performs_get s key size
  | set key value err => exact performs_set s key value err
  | erase key => exact performs_erase s key
  | list => exact performs_list s

/-! ## A history -/

/-- A call depends on the values of the table's names only. -/
theorem answer_congr {f g : CString → Option CString} (op : Op)
    (hfg : ∀ name, (parameter? name).isSome → f name = g name) : answer f op = answer g op := by
  have hkey : ∀ key p, parameter? key = some p → f key = g key := fun key p h =>
    hfg key (h ▸ Option.isSome_some)
  cases op with
  | get key size =>
    simp only [answer]
    cases h : parameter? key with
    | none => rfl
    | some p => rw [hkey key p h]
  | set key value err => rfl
  | erase key =>
    simp only [answer]
    cases h : parameter? key with
    | none => rfl
    | some p => rw [hkey key p h]
  | list =>
    refine congrArg Answer.listed (List.filterMap_congr fun p hp => ?_)
    rw [hfg p.name (parameter?_name hp)]

@[simp] theorem run_nil (s : Store) : s.run [] = s := rfl

@[simp] theorem run_cons (s : Store) (op : Op) (ops : List Op) :
    s.run (op :: ops) = (s.step op).2.run ops := rfl

@[simp] theorem lastValue_nil (value : Option CString) (key : CString) :
    lastValue value key [] = value := rfl

@[simp] theorem lastValue_cons (value : Option CString) (key : CString) (op : Op) (ops : List Op) :
    lastValue value key (op :: ops) = lastValue (op.value key value) key ops := rfl

/-- **After a history the store is the map.** -/
theorem run_nvs : ∀ (ops : List Op) (s : Store) (name : CString), (s.run ops).nvs name =
    if (parameter? name).isSome then lastValue (s.nvs name) name ops else s.nvs name := by
  intro ops
  induction ops with
  | nil => exact fun s name => (ite_self _).symm
  | cons op ops ih =>
    intro s name
    rw [run_cons, ih, (step_performs s op).nvs, lastValue_cons]
    split_ifs <;> rfl

/-- After a history, too, names of the table only were touched. -/
theorem run_accesses : ∀ (ops : List Op) (s : Store), ∀ name ∈ (s.run ops).accesses,
    name ∈ s.accesses ∨ (parameter? name).isSome := by
  intro ops
  induction ops with
  | nil => exact fun s name hname => Or.inl hname
  | cons op ops ih =>
    intro s name hname
    obtain hstep | htable := ih (s.step op).2 name hname
    · exact (step_performs s op).accesses name hstep
    · exact Or.inr htable

/-- **A history of calls answers as the map would.** -/
theorem run_answer (s : Store) (ops : List Op) (op : Op) :
    ((s.run ops).step op).1 = answer (fun name => lastValue (s.nvs name) name ops) op := by
  rw [(step_performs (s.run ops) op).answer]
  refine answer_congr op fun name hname => ?_
  rw [run_nvs, if_pos hname]

/-! ## The laws of the map -/

/-- A call neither sets nor erases the key. -/
def Op.spares (key : CString) : Op → Prop
  | .set k _ _ => k ≠ key
  | .erase k => k ≠ key
  | _ => True

/-- A value lasts while its key is neither set nor erased. -/
theorem lastValue_of_spares {key : CString} : ∀ {ops : List Op} (value : Option CString),
    (∀ op ∈ ops, op.spares key) → lastValue value key ops = value := by
  intro ops
  induction ops with
  | nil => exact fun value _ => rfl
  | cons op ops ih =>
    intro value hspares
    obtain ⟨hop, hops⟩ := List.forall_mem_cons.mp hspares
    rw [lastValue_cons, ih _ hops]
    cases op with
    | get k size => rfl
    | set k v err => exact if_neg (fun h => hop h.1)
    | erase k => exact if_neg hop
    | list => rfl

theorem lastValue_append (value : Option CString) (key : CString) (ops later : List Op) :
    lastValue value key (ops ++ later) = lastValue (lastValue value key ops) key later :=
  List.foldl_append

/-- What a set stores lasts. -/
theorem lastValue_set {key : CString} {later : List Op} (hlater : ∀ op ∈ later, op.spares key)
    (ops : List Op) (old : Option CString) (value : CString) :
    lastValue old key (ops ++ .set key value .ok :: later) = some value := by
  rw [lastValue_append, lastValue_cons, lastValue_of_spares _ hlater]
  exact if_pos ⟨rfl, rfl⟩

/-- What an erase removes stays away. -/
theorem lastValue_erase {key : CString} {later : List Op} (hlater : ∀ op ∈ later, op.spares key)
    (ops : List Op) (old : Option CString) :
    lastValue old key (ops ++ .erase key :: later) = none := by
  rw [lastValue_append, lastValue_cons, lastValue_of_spares _ hlater]
  exact if_pos rfl

/-- A get of a parameter with a value that fits. -/
theorem answer_get_some {f : CString → Option CString} {key value : CString} {p : Parameter}
    {size : ℕ} (hkey : parameter? key = some p) (hvalue : f key = some value)
    (hsize : value.length < size) :
    answer f (.get key size) = .got (if p.secret then .secret else .normal) (some value) := by
  simp only [answer, hkey, hvalue, if_pos hsize]

/-- A get of a parameter without a value. -/
theorem answer_get_none {f : CString → Option CString} {key : CString} {p : Parameter} (size : ℕ)
    (hkey : parameter? key = some p) (hvalue : f key = none) :
    answer f (.get key size) = .got .notSet (some []) := by
  simp only [answer, hkey, hvalue]

/-- The names of the cryptographic keys are not in the table. -/
theorem parameter?_cryptographic : ∀ name ∈ ["aes_key".toList, "cookie_iv".toList,
    "hmac_key".toList], parameter? name = none := by
  decide

/-- **Over any history the parameters are a map, and the rest of the namespace is left alone.**  A
get after a set of its key returns the value, whatever was done to other keys since; after an erase,
or with no set at all, it finds the parameter not set. -/
theorem behavesAsMap (s : Store) (ops : List Op) :
    (∀ op, ((s.run ops).step op).1 = answer (fun name => lastValue (s.nvs name) name ops) op) ∧
    (∀ key p value size later, parameter? key = some p → value.length < size →
      (∀ op ∈ later, op.spares key) →
      ((s.run (ops ++ .set key value .ok :: later)).step (.get key size)).1
        = .got (if p.secret then .secret else .normal) (some value)) ∧
    (∀ key p size later, parameter? key = some p → (∀ op ∈ later, op.spares key) →
      ((s.run (ops ++ .erase key :: later)).step (.get key size)).1 = .got .notSet (some [])) ∧
    (∀ key p size, parameter? key = some p → s.nvs key = none → (∀ op ∈ ops, op.spares key) →
      ((s.run ops).step (.get key size)).1 = .got .notSet (some [])) ∧
    (∀ name, parameter? name = none → (s.run ops).nvs name = s.nvs name) ∧
    (∀ name ∈ (s.run ops).accesses, name ∈ s.accesses ∨ (parameter? name).isSome) ∧
    ∀ name ∈ ["aes_key".toList, "cookie_iv".toList, "hmac_key".toList],
      (s.run ops).nvs name = s.nvs name ∧
        (name ∈ (s.run ops).accesses → name ∈ s.accesses) := by
  have hframe : ∀ name, parameter? name = none → (s.run ops).nvs name = s.nvs name := by
    intro name hname
    rw [run_nvs, hname]
    exact if_neg Bool.false_ne_true
  refine ⟨run_answer s ops, ?_, ?_, ?_, hframe, run_accesses ops s, ?_⟩
  · intro key p value size later hkey hsize hlater
    rw [run_answer]
    exact answer_get_some hkey (lastValue_set hlater ops _ value) hsize
  · intro key p size later hkey hlater
    rw [run_answer]
    exact answer_get_none size hkey (lastValue_erase hlater ops _)
  · intro key p size hkey hunset hops
    rw [run_answer]
    exact answer_get_none size hkey ((lastValue_of_spares _ hops).trans hunset)
  · intro name hname
    have htable := parameter?_cryptographic name hname
    refine ⟨hframe name htable, fun haccess => ?_⟩
    obtain hold | hsome := run_accesses ops s name haccess
    · exact hold
    · rw [htable] at hsome
      cases hsome

end Nvs
