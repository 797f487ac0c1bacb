import HtFirmware.Session.Cookie
import HtFirmware.Storage.Nvs

/-!
# Session/Session — who is logged in

`gmSession` allocates a request's session context and fills it from the cookie.  The allocation is
not cleared, and each path sets some of its members only; what is left is what the memory held.

`gmGetUserData` gives back an error, and the condition on it takes success, which is zero, for false:
a user who is not in the store is logged in, one who is, is not (`authenticates_iff`).
-/

open Machinery Nvs

namespace Session

/-! ## JSON and contexts -/

/-- A JSON value, as cJSON has it. -/
inductive Json where
  | null
  | bool (value : Bool)
  | number (text : String)
  | string (value : String)
  | array (items : List Json)
  | object (members : List (String × Json))

/-- `cJSON_GetObjectItemCaseSensitive`. -/
def Json.getObjectItem (json : Json) (name : String) : Option Json :=
  match json with
  | .object members => (members.find? fun m => m.1 = name).map Prod.snd
  | _ => none

/-- A member that is a string. -/
def Json.stringItem (json : Json) (name : String) : Option String :=
  match json.getObjectItem name with
  | some (.string value) => some value
  | _ => none

/-- A pointer: bits that were in memory, zero being null, or one to something made since. -/
inductive Pointer (α : Type) where
  | raw (bits : UInt32)
  | made (value : α)

/-- `gm_session_context_t`; the user's record is sixty bytes. -/
structure SessionContext where
  json : Pointer Json
  userName : Pointer String
  userData : Bytes 60

/-- What `malloc` returns. -/
structure Memory where
  json : UInt32
  userName : UInt32
  userData : Bytes 60

/-- A context in memory that has just been allocated. -/
def Memory.context (memory : Memory) : SessionContext :=
  ⟨.raw memory.json, .raw memory.userName, memory.userData⟩

/-! ## Users -/

/-- The store's namespace of users: whether it opens, whether it can be read, and what it holds. -/
structure UserStore where
  openErr : EspErr := .ok
  readErr : EspErr := .ok
  blobs : Blobs

/-- `gm_get_user_data`, and what it leaves in the record it is given. -/
def gmGetUserData (store : UserStore) (name : String) (data : Bytes 60) : EspErr × Bytes 60 :=
  if store.openErr ≠ .ok then (store.openErr, data)
  else if store.readErr ≠ .ok then (store.readErr, data)
  else
    let got := getBlob store.blobs name data
    if got.err ≠ .ok then (got.err, got.buffer)
    else if got.size ≠ 60 then (.other, got.buffer)
    else (.ok, got.buffer)

/-- The stored record of a user. -/
def userRecord (store : UserStore) (name : String) : Option (Bytes 60) :=
  let got := gmGetUserData store name fun _ => 0
  if got.1 = .ok then some got.2 else none

/-! ## Sessions -/

/-- What `gm_session` needs of a request. -/
structure Request where
  sessCtx : Option SessionContext := none
  cookie : Option (List UInt8)

/-- What a context becomes, given the JSON of the cookie. -/
def SessionContext.fill (s : SessionContext) (store : UserStore) (strdupOk : Bool) (json : Json) :
    SessionContext :=
  let s := { s with json := .made json }
  match json.stringItem "name" with
  | some name =>
    let got := gmGetUserData store name s.userData
    let s := { s with userData := got.2 }
    -- An error is not zero: this is the branch of a user who was not found.
    if got.1 ≠ .ok then { s with userName := if strdupOk then .made name else .raw 0 } else s
  | none => s

/-- `gm_session`: the session context it leaves. -/
def gmSession (lib : Library Json) (key : Bytes 32) (iv : Bytes 16) (store : UserStore)
    (memory : Memory) (strdupOk : Bool) (request : Request) : Except Fault SessionContext :=
  match request.sessCtx with
  | some s => .ok s
  | none =>
    (gmReadCookie lib key iv request.cookie).map fun json? =>
      match json? with
      | some json => memory.context.fill store strdupOk json
      | none => memory.context

/-- A pointer that `free_context` may free: null, or one to something made. -/
def Pointer.Own {α : Type} (p : Pointer α) : Prop := ∀ bits, p = .raw bits → bits = 0

/-- `free_context` frees nothing but what `gm_session` made. -/
def SessionContext.FreesOwn (s : SessionContext) : Prop := s.json.Own ∧ s.userName.Own

/-! ## What is promised, and when it is kept -/

/-- The user a cookie names, and the record of that user. -/
def namedUser (store : UserStore) (json : Json) : Option (String × Bytes 60) :=
  (json.stringItem "name").bind fun name => (userRecord store name).map fun record => (name, record)

/-- The context says who is logged in: the user the cookie names, if that user is in the store, and
nobody else. -/
def LoggedIn (store : UserStore) : Option Json → SessionContext → Prop
  | none, s => s.json = .raw 0 ∧ s.userName = .raw 0 ∧ s.userData = fun _ => 0
  | some json, s => s.json = .made json ∧
    match namedUser store json with
    | some (name, record) => s.userName = .made name ∧ s.userData = record
    | none => s.userName = .raw 0 ∧ s.userData = fun _ => 0

/-- `gm_session` comes to its end, the context says who is logged in, and can be freed. -/
def Authenticates (lib : Library Json) (key : Bytes 32) (iv : Bytes 16) (store : UserStore)
    (memory : Memory) (strdupOk : Bool) (cookie : Option (List UInt8)) : Prop :=
  ∃ json? s, gmReadCookie lib key iv cookie = .ok json? ∧
    gmSession lib key iv store memory strdupOk { cookie := cookie } = .ok s ∧
    LoggedIn store json? s ∧ s.FreesOwn

/-- The memory happens to hold what it should, and if the cookie names a user, that user cannot be
found, and the name cannot be copied either. -/
def HappensToHold (store : UserStore) (memory : Memory) (strdupOk : Bool) : Option Json → Prop
  | none => memory.json = 0 ∧ memory.userName = 0 ∧ memory.userData = fun _ => 0
  | some json =>
    match json.stringItem "name" with
    | some name => userRecord store name = none ∧ strdupOk = false ∧
        (gmGetUserData store name memory.userData).2 = fun _ => 0
    | none => memory.userName = 0 ∧ memory.userData = fun _ => 0

/-! ## The context a session is left with -/

theorem own_raw {α : Type} {bits : UInt32} : (Pointer.raw (α := α) bits).Own ↔ bits = 0 := by
  constructor
  · exact fun h => h bits rfl
  · rintro rfl _ h
    cases h
    rfl

theorem own_made {α : Type} (value : α) : (Pointer.made value).Own := fun _ h => by cases h

theorem raw_eq_null {α : Type} {bits : UInt32} : Pointer.raw (α := α) bits = .raw 0 ↔ bits = 0 :=
  Pointer.raw.injEq bits 0 ▸ Iff.rfl

/-- Whether a user is found does not depend on the memory the record goes to. -/
theorem gmGetUserData_err (store : UserStore) (name : String) (d d' : Bytes 60) :
    (gmGetUserData store name d).1 = (gmGetUserData store name d').1 := by
  unfold gmGetUserData
  split_ifs with hopen hread
  · rfl
  · rfl
  · unfold getBlob
    cases store.blobs name with
    | none => rfl
    | some blob =>
      dsimp only
      split_ifs <;> rfl

/-- A user who is not in the store has no record. -/
theorem userRecord_eq_none {store : UserStore} {name : String} (d : Bytes 60) :
    userRecord store name = none ↔ (gmGetUserData store name d).1 ≠ .ok := by
  rw [gmGetUserData_err store name d fun _ => 0]
  unfold userRecord
  dsimp only
  split_ifs with h <;> simp [h]

variable {store : UserStore} {memory : Memory} {strdupOk : Bool}

/-- Without a cookie, the context is what the memory held. -/
theorem loggedIn_none :
    LoggedIn store none memory.context ∧ memory.context.FreesOwn ↔
      HappensToHold store memory strdupOk none := by
  simp only [LoggedIn, HappensToHold, SessionContext.FreesOwn, Memory.context, own_raw, raw_eq_null]
  exact and_iff_left_of_imp fun h => ⟨h.1, h.2.1⟩

/-- A cookie that names nobody leaves the rest of it. -/
theorem loggedIn_noName {json : Json} (hname : json.stringItem "name" = none) :
    LoggedIn store (some json) (memory.context.fill store strdupOk json) ∧
        (memory.context.fill store strdupOk json).FreesOwn ↔
      HappensToHold store memory strdupOk (some json) := by
  simp only [LoggedIn, HappensToHold, SessionContext.fill, SessionContext.FreesOwn, namedUser, hname,
    Option.bind_none, Memory.context, raw_eq_null, own_raw, own_made, true_and]
  exact and_iff_left_of_imp And.left

section Named

variable {json : Json} {name : String}

/-- Whoever is found is left with what the memory held for a name. -/
theorem fill_found (hname : json.stringItem "name" = some name)
    (herr : (gmGetUserData store name memory.userData).1 = .ok) :
    memory.context.fill store strdupOk json
      = ⟨.made json, .raw memory.userName, (gmGetUserData store name memory.userData).2⟩ := by
  simp only [SessionContext.fill, hname]
  exact if_neg (not_not.mpr herr)

theorem fill_notFound (hname : json.stringItem "name" = some name)
    (herr : (gmGetUserData store name memory.userData).1 ≠ .ok) :
    memory.context.fill store strdupOk json
      = ⟨.made json, if strdupOk then .made name else .raw 0,
        (gmGetUserData store name memory.userData).2⟩ := by
  simp only [SessionContext.fill, hname]
  exact if_pos herr

/-- A user who is in the store is not logged in. -/
theorem not_loggedIn_found (hname : json.stringItem "name" = some name) {record : Bytes 60}
    (hrecord : userRecord store name = some record) :
    ¬ LoggedIn store (some json) (memory.context.fill store strdupOk json) := by
  have hfound : (gmGetUserData store name memory.userData).1 = .ok := by
    rw [← not_ne_iff, ← userRecord_eq_none, hrecord]
    exact Option.some_ne_none record
  rw [fill_found hname hfound]
  simp only [LoggedIn, namedUser, hname, Option.bind_some, hrecord, Option.map_some]
  rintro ⟨-, h, -⟩
  cases h

/-- A user who is not is logged in, where the name can be copied. -/
theorem loggedIn_notFound (hname : json.stringItem "name" = some name)
    (hrecord : userRecord store name = none) :
    LoggedIn store (some json) (memory.context.fill store strdupOk json) ∧
        (memory.context.fill store strdupOk json).FreesOwn ↔
      strdupOk = false ∧ (gmGetUserData store name memory.userData).2 = fun _ => 0 := by
  rw [fill_notFound hname ((userRecord_eq_none memory.userData).mp hrecord)]
  simp only [LoggedIn, SessionContext.FreesOwn, namedUser, hname, Option.bind_some, hrecord,
    Option.map_none, own_made, true_and]
  cases strdupOk with
  | true => simp
  | false => simp [own_raw]

end Named

/-- **With one, nobody who is in the store is logged in, and everybody who is not.** -/
theorem loggedIn_some (json : Json) :
    LoggedIn store (some json) (memory.context.fill store strdupOk json) ∧
        (memory.context.fill store strdupOk json).FreesOwn ↔
      HappensToHold store memory strdupOk (some json) := by
  cases hname : json.stringItem "name" with
  | none => exact loggedIn_noName hname
  | some name =>
    simp only [HappensToHold, hname]
    cases hrecord : userRecord store name with
    | none => rw [loggedIn_notFound hname hrecord, eq_self_iff_true, true_and]
    | some record =>
      exact iff_of_false (fun h => not_loggedIn_found hname hrecord h.1)
        (fun h => Option.some_ne_none record h.1)

/-- **Who is logged in is right only by chance**: where the memory holds what it should, and a user
named by the cookie can neither be found nor be copied. -/
theorem authenticates_iff (lib : Library Json) (key : Bytes 32) (iv : Bytes 16) (store : UserStore)
    (memory : Memory) (strdupOk : Bool) (cookie : Option (List UInt8)) :
    Authenticates lib key iv store memory strdupOk cookie ↔
      ∃ json?, gmReadCookie lib key iv cookie = .ok json? ∧
        HappensToHold store memory strdupOk json? := by
  refine exists_congr fun json? => ?_
  constructor
  · rintro ⟨s, hcookie, hsession, hlogged⟩
    rw [gmSession] at hsession
    simp only [hcookie, Except.map] at hsession
    refine ⟨hcookie, ?_⟩
    obtain rfl := Except.ok.inj hsession
    cases json? with
    | none => exact loggedIn_none.mp hlogged
    | some json => exact (loggedIn_some json).mp hlogged
  · rintro ⟨hcookie, hhold⟩
    cases json? with
    | none =>
      exact ⟨memory.context, hcookie, by simp only [gmSession, hcookie, Except.map],
        loggedIn_none.mpr hhold⟩
    | some json =>
      exact ⟨_, hcookie, by simp only [gmSession, hcookie, Except.map], (loggedIn_some json).mpr hhold⟩

/-! ## A user who is not in the store -/

/-- A library that does with one cookie what the real ones do: the cookie decrypts to
`{"name":"mallory"}`. -/
def mallorysLibrary : Library Json where
  encrypt _ _ b := b
  decrypt _ _ _ := [213, 247, 108, 112, 4, 3, 2, 1, 123, 34, 110, 97, 109, 101, 34, 58, 34, 109, 97,
    108, 108, 111, 114, 121, 34, 125, 0, 0, 0, 0, 0, 0]
  base64Encode b := b
  base64Decode _ := [93, 124, 87, 131, 155, 66, 139, 230, 60, 116, 72, 119, 113, 202, 162, 161, 95,
    123, 5, 9, 104, 240, 4, 123, 78, 164, 225, 22, 252, 238, 184, 108]
  crc32 _ := 0x706cf7d5
  print _ := []
  parse _ := some (.object [("name", .string "mallory")])

/-- XXxXg5tCi+Y8dEh3ccqioV97BQlo8AR7TqThFvzuuGw=, in base64. -/
def mallorysCookie : List UInt8 :=
  [88, 88, 120, 88, 103, 53, 116, 67, 105, 43, 89, 56, 100, 69, 104, 51, 99, 99, 113, 105, 111, 86,
    57, 55, 66, 81, 108, 111, 56, 65, 82, 55, 84, 113, 84, 104, 70, 118, 122, 117, 117, 71, 119, 61]

/-- **A cookie is enough to be logged in as somebody who is not in the store.** -/
theorem not_authenticates_mallory :
    ¬ Authenticates mallorysLibrary (fun i => i.val.toUInt8) (fun i => i.val.toUInt8)
      { blobs := fun _ => none } ⟨0, 0, fun _ => 0⟩ true (some mallorysCookie) := by
  rintro ⟨json?, s, hcookie, hsession, hlogged, -⟩
  obtain rfl := Except.ok.inj hcookie
  obtain rfl := Except.ok.inj hsession
  cases hlogged.2.1

end Session
