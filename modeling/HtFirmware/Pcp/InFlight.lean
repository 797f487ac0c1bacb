import HtFirmware.Pcp.Acceptance
import HtFirmware.Pcp.Renewal

/-!
# Pcp/InFlight — is a grant lost on its way?

A request is two steps of one task, sending the packet and saving the record; the answer is decoded
by another.  `Watched` runs the client beside what the answers promise: `owed` keeps, for each nonce
ever requested, the last success response decoded for it, until a failure response or a stop.
`Kept` says that the promise is kept once the requesting task is done: the mapping exists, granted,
with the external address of that response.

An answer that overtakes the save finds no record, and is dropped; the record saved afterwards is
never granted.  `kept_of_timely` shows that the promises of a run are kept where no answer does, and
no other step of the run loses a record.
-/

open Machinery

namespace Pcp

/-! ## What the answers promise -/

/-- The client, the nonces it ever sent requests with, those of the records it saved since, and what
it owes each of them. -/
structure Watched where
  gm : Gm := {}
  requested : List (Bytes 12) := []
  filed : List (Bytes 12) := []
  owed : Bytes 12 → Option PcpPacket := fun _ => none

/-- The nonces requested after an event; a request whose `sendto` fails is none. -/
def requestedAfter (w : Watched) : Event → List (Bytes 12)
  | .request _ _ nonce status => if status < 0 then w.requested else nonce :: w.requested
  | _ => w.requested

/-- A whole MAP response of the router. -/
def Answers (w : Watched) (p : PcpPacket) (messageSize : ℕ) (address : SockAddr) : Prop :=
  Heeded w.gm address ∧ p.IsMapResponse messageSize

instance (w : Watched) (p : PcpPacket) (messageSize : ℕ) (address : SockAddr) :
    Decidable (Answers w p messageSize address) := inferInstanceAs (Decidable (_ ∧ _))

/-- A response that promises a mapping: a success, with a usable address, for a request. -/
def Promises (esp : EspNetif) (w : Watched) (p : PcpPacket) : Prop :=
  p.resultCode = pcpSuccess ∧ esp.Usable p.externalAddress ∧ p.nonce ∈ w.requested

instance (esp : EspNetif) (w : Watched) (p : PcpPacket) : Decidable (Promises esp w p) :=
  inferInstanceAs (Decidable (_ ∧ _ ∧ _))

/-- The nonces filed after an event: a save files one, until a failure response or a stop. -/
def filedAfter (w : Watched) : Event → List (Bytes 12)
  | .save k _ _ _ => ((w.gm.pending[k]?).map fun r => r.packet.nonce).toList ++ w.filed
  | .packet p messageSize address _ _ =>
    if Answers w p messageSize address ∧ p.resultCode ≠ pcpSuccess then
      w.filed.filter fun nonce => nonce ≠ p.nonce
    else w.filed
  | .stop => []
  | _ => w.filed

/-- What is owed after an event: the last promise, until a failure response or a stop. -/
def owedAfter (esp : EspNetif) (w : Watched) : Event → Bytes 12 → Option PcpPacket
  | .packet p messageSize address _ _ =>
    if Answers w p messageSize address then
      if Promises esp w p then Function.update w.owed p.nonce (some p)
      else if p.resultCode = pcpSuccess then w.owed
      else Function.update w.owed p.nonce none
    else w.owed
  | .stop => fun _ => none
  | _ => w.owed

/-- One event, watched. -/
def watch (esp : EspNetif) (w : Watched) (e : Event) : Option Watched :=
  (next esp w.gm e).map fun t => ⟨t, requestedAfter w e, filedAfter w e, owedAfter esp w e⟩

/-- The record a response promised. -/
structure Granted (m : PortMapping) (p : PcpPacket) : Prop where
  nonce : m.nonce = p.nonce
  type : m.type = .granted
  address : m.external.pcpAddress = p.externalAddress
  port : m.external.port = p.externalPort

/-- The mapping a response promised exists. -/
def Holds (gm : Gm) (p : PcpPacket) : Prop :=
  ∃ m ∈ gm.records, m.pointer ∉ gm.freed ∧ Granted m p

/-- **Promises are kept**: what is owed to a nonce that is no longer in flight is there. -/
def Kept (w : Watched) : Prop :=
  ∀ nonce p, w.owed nonce = some p → (∀ r ∈ w.gm.pending, r.packet.nonce ≠ nonce) → Holds w.gm p

/-- **No promise is dropped** as one for a mapping that was not requested. -/
def Heard (esp : EspNetif) (w : Watched) (e : Event) : Prop :=
  match e with
  | .packet p messageSize address _ _ => Answers w p messageSize address → Promises esp w p →
      ∃ m, findMapping w.gm p.nonce = .ok (some m)
  | _ => True

/-! ## What it takes -/

/-- **What it takes**: a promise arrives after the save, and not after a failure or a stop; a failure
leads to a record that can be removed; and a record saved takes the place of no other. -/
def Timely (esp : EspNetif) (w : Watched) (e : Event) : Prop :=
  match e with
  | .packet p messageSize address _ _ => Answers w p messageSize address →
      (Promises esp w p → p.nonce ∈ w.filed) ∧
      (p.resultCode ≠ pcpSuccess → ∀ m, known w.gm p.nonce = some m → RemovalSafe w.gm m)
  | .save k frame _ _ => ∀ r ∈ w.gm.pending[k]?,
      ∀ internal ∈ r.packet.internalSockaddr frame,
        ∀ m ∈ w.gm.portMappings r.interface internal.family, m.nonce ≠ r.packet.nonce
  | _ => True

/-- What every timely step keeps: the filed records exist, and what is owed is there, in flight or
not. -/
structure Watching (w : Watched) : Prop where
  sound : Sound w.gm
  alive : Alive w.gm
  filed : ∀ nonce ∈ w.filed, ∃ m ∈ w.gm.records, m.nonce = nonce
  nonce : ∀ nonce p, w.owed nonce = some p → p.nonce = nonce
  requested : ∀ nonce p, w.owed nonce = some p → nonce ∈ w.requested
  holds : ∀ nonce p, w.owed nonce = some p → ∃ m ∈ w.gm.records, Granted m p

theorem watching_init : Watching {} where
  sound := sound_init
  alive := alive_init
  filed _ h := absurd h List.not_mem_nil
  nonce _ _ h := by cases h
  requested _ _ h := by cases h
  holds _ _ h := by cases h

/-- Where a run is watched, its promises are kept. -/
theorem Watching.kept {w : Watched} (h : Watching w) : Kept w := by
  intro nonce p hp _
  obtain ⟨m, hm, hgranted⟩ := h.holds nonce p hp
  obtain ⟨i, f, hmem⟩ := Gm.mem_records.mp hm
  exact ⟨m, hm, h.alive.live i f m hmem, hgranted⟩

section Step

variable {esp : EspNetif} {w : Watched} {t : Gm} {p : PcpPacket} {messageSize : ℕ}
  {address : SockAddr} {frame : Frame} {now : Timeval}

/-- A record that was filed is found. -/
theorem Watching.known_of_filed (h : Watching w) {nonce : Bytes 12} (hn : nonce ∈ w.filed) :
    ∃ m, known w.gm nonce = some m := by
  obtain ⟨m, hm, hmn⟩ := h.filed nonce hn
  refine Option.ne_none_iff_exists'.mp fun hnone => ?_
  exact known_eq_none.mp hnone m hm hmn

/-- A timely promise is not dropped. -/
theorem Watching.heard (h : Watching w) {e : Event} (hsafe : Timely esp w e) : Heard esp w e := by
  cases e with
  | packet p messageSize address frame now =>
    intro hanswers hpromises
    obtain ⟨m, hm⟩ := h.known_of_filed ((hsafe hanswers).1 hpromises)
    exact ⟨m, hm ▸ h.alive.findMapping p.nonce⟩
  | _ => trivial

theorem removesSafely_of_timely {e : Event} (h : Timely esp w e) : RemovesSafely w.gm e := by
  cases e with
  | packet p messageSize address frame now => exact fun hh hm => (h ⟨hh, hm⟩).2
  | _ => trivial

/-- A step that keeps every record, and owes no more. -/
theorem Watching.of_records (h : Watching w) {w' : Watched} (hs : Sound w'.gm) (ha : Alive w'.gm)
    (hsub : ∀ m ∈ w.gm.records, m ∈ w'.gm.records)
    (hrequested : ∀ n ∈ w.requested, n ∈ w'.requested)
    (hfiled : ∀ n ∈ w'.filed, n ∈ w.filed ∨ ∃ m ∈ w'.gm.records, m.nonce = n)
    (howed : ∀ n q, w'.owed n = some q → w.owed n = some q) : Watching w' where
  sound := hs
  alive := ha
  filed n hn := by
    obtain hn | hm := hfiled n hn
    · obtain ⟨m, hm, hmn⟩ := h.filed n hn
      exact ⟨m, hsub m hm, hmn⟩
    · exact hm
  nonce n q hq := h.nonce n q (howed n q hq)
  requested n q hq := hrequested n (h.requested n q (howed n q hq))
  holds n q hq := by
    obtain ⟨m, hm, hgranted⟩ := h.holds n q (howed n q hq)
    exact ⟨m, hsub m hm, hgranted⟩

/-- A step that touches no list, and owes the same. -/
theorem Watching.of_lists (h : Watching w) {w' : Watched} (hs : Sound w'.gm) (ha : Alive w'.gm)
    (hl : w'.gm.portMappings = w.gm.portMappings)
    (hrequested : ∀ n ∈ w.requested, n ∈ w'.requested) (hfiled : w'.filed = w.filed)
    (howed : w'.owed = w.owed) : Watching w' := by
  refine h.of_records hs ha (fun m hm => ?_) hrequested (fun n hn => Or.inl (hfiled ▸ hn))
    fun n q hq => howed ▸ hq
  obtain ⟨i, f, hm⟩ := Gm.mem_records.mp hm
  exact Gm.mem_records.mpr ⟨i, f, hl ▸ hm⟩

/-- **A grant keeps its promise**, and every other. -/
theorem Watching.grant (h : Watching w) {m : PortMapping} (hk : known w.gm p.nonce = some m)
    {external : SockAddr} (haddress : external.pcpAddress = p.externalAddress)
    (hport : external.port = p.externalPort) {n : Bytes 12} {q : PcpPacket}
    (howed : (w.owed n = some q ∧ n ≠ p.nonce) ∨ q = p) :
    ∃ r ∈ (w.gm.update m.pointer fun r => r.grant external now p.lifetime).records,
      Granted r q := by
  obtain ⟨hm, hnonce⟩ := known_mem hk
  obtain ⟨i, f, hm⟩ := Gm.mem_records.mp hm
  obtain ⟨hold, hne⟩ | rfl := howed
  · obtain ⟨r, hr, hgranted⟩ := h.holds n q hold
    obtain ⟨j, g, hr⟩ := Gm.mem_records.mp hr
    refine ⟨r, Gm.mem_records.mpr ⟨j, g, List.mem_map.mpr ⟨r, hr, if_neg fun hp => hne ?_⟩⟩,
      hgranted⟩
    rw [← h.nonce n q hold, ← hgranted.nonce, h.sound.eq_of_pointer hr hm hp, hnonce]
  · exact ⟨m.grant external now q.lifetime,
      Gm.mem_records.mpr ⟨i, f, List.mem_map.mpr ⟨m, hm, if_pos rfl⟩⟩, hnonce, rfl, haddress, hport⟩

/-- Writing a record keeps the nonces. -/
theorem exists_nonce_update {gm : Gm} {nonce : Bytes 12} {pointer : ℕ}
    {write : PortMapping → PortMapping} (hw : ∀ r, (write r).nonce = r.nonce)
    (h : ∃ m ∈ gm.records, m.nonce = nonce) :
    ∃ m ∈ (gm.update pointer write).records, m.nonce = nonce := by
  obtain ⟨m, hm, rfl⟩ := h
  obtain ⟨i, f, hm⟩ := Gm.mem_records.mp hm
  refine ⟨_, Gm.mem_records.mpr ⟨i, f, List.mem_map.mpr ⟨m, hm, rfl⟩⟩, ?_⟩
  split_ifs
  exacts [hw m, rfl]

/-- A safe removal keeps the records of every other nonce. -/
theorem Watching.mem_of_remove (h : Watching w) {m : PortMapping}
    (hk : known w.gm p.nonce = some m) (hsafe : RemovalSafe w.gm m)
    (ht : removePcpMapping w.gm m = .ok t) {r : PortMapping} (hr : r ∈ w.gm.records)
    (hne : r.nonce ≠ p.nonce) : r ∈ t.records := by
  obtain ⟨hm, hnonce⟩ := known_mem hk
  obtain ⟨hu, -⟩ | ⟨f, hf, hu⟩ := removePcpMapping_of_safe hsafe
  · exact Except.ok.inj (hu.symm.trans ht) ▸ hr
  · obtain rfl := Except.ok.inj (hu.symm.trans ht)
    obtain ⟨j, g, hr⟩ := Gm.mem_records.mp hr
    refine Gm.mem_records.mpr ⟨j, g, ?_⟩
    rw [Gm.portMappings_setList]
    split_ifs with hjg
    · obtain ⟨rfl, rfl⟩ := hjg
      rw [h.sound.cons_of_headsList hm hf] at hr
      obtain rfl | hr := List.mem_cons.mp hr
      exacts [absurd hnonce hne, hr]
    · exact hr

/-- A promise leads to a record, which is granted. -/
theorem Watching.promise (h : Watching w) (hanswers : Answers w p messageSize address)
    (hpromises : Promises esp w p) (hfiled : p.nonce ∈ w.filed) (hs : Sound t) (ha : Alive t)
    (ht : decodePcpMap esp w.gm p frame now = .ok t) :
    Watching ⟨t, w.requested, filedAfter w (.packet p messageSize address frame now),
      owedAfter esp w (.packet p messageSize address frame now)⟩ := by
  obtain ⟨hcode, husable, hrequested⟩ := hpromises
  obtain ⟨m, hk⟩ := h.known_of_filed hfiled
  obtain ⟨external, haddress, hport, hgrant⟩ := h.alive.decodePcpMap_grant hk hcode husable frame now
  obtain rfl := Except.ok.inj (hgrant.symm.trans ht)
  have howed : owedAfter esp w (.packet p messageSize address frame now)
      = Function.update w.owed p.nonce (some p) :=
    (if_pos hanswers).trans (if_pos ⟨hcode, husable, hrequested⟩)
  have hcases : ∀ n q, owedAfter esp w (.packet p messageSize address frame now) n = some q →
      (w.owed n = some q ∧ n ≠ p.nonce) ∨ (n = p.nonce ∧ q = p) := by
    intro n q hq
    rw [howed, Function.update_apply] at hq
    split_ifs at hq with hn
    exacts [Or.inr ⟨hn, (Option.some.inj hq).symm⟩, Or.inl ⟨hq, hn⟩]
  refine ⟨hs, ha, fun n hn => ?_, fun n q hq => ?_, fun n q hq => ?_, fun n q hq => ?_⟩
  · have hn : n ∈ w.filed := by
      rwa [filedAfter, if_neg fun hfail => hfail.2 hcode] at hn
    exact exists_nonce_update (fun _ => rfl) (h.filed n hn)
  · obtain ⟨hq, -⟩ | ⟨rfl, rfl⟩ := hcases n q hq
    exacts [h.nonce n q hq, rfl]
  · obtain ⟨hq, -⟩ | ⟨rfl, rfl⟩ := hcases n q hq
    exacts [h.requested n q hq, hrequested]
  · exact h.grant hk haddress hport ((hcases n q hq).imp_right And.right)

/-- A failure takes back its promise, and no other. -/
theorem Watching.failure (h : Watching w) (hanswers : Answers w p messageSize address)
    (hcode : p.resultCode ≠ pcpSuccess)
    (hsafe : ∀ m, known w.gm p.nonce = some m → RemovalSafe w.gm m) (hs : Sound t) (ha : Alive t)
    (ht : decodePcpMap esp w.gm p frame now = .ok t) :
    Watching ⟨t, w.requested, filedAfter w (.packet p messageSize address frame now),
      owedAfter esp w (.packet p messageSize address frame now)⟩ := by
  have hkeeps : ∀ r ∈ w.gm.records, r.nonce ≠ p.nonce → r ∈ t.records := by
    intro r hr hne
    cases hk : known w.gm p.nonce with
    | none => exact Except.ok.inj ((h.alive.decodePcpMap_unknown hk frame now).symm.trans ht) ▸ hr
    | some m =>
      rw [h.alive.decodePcpMap_failure hk hcode frame now] at ht
      exact h.mem_of_remove hk (hsafe m hk) ht hr hne
  have hcases : ∀ n q, owedAfter esp w (.packet p messageSize address frame now) n = some q →
      w.owed n = some q ∧ n ≠ p.nonce := by
    intro n q hq
    rw [owedAfter, if_pos hanswers, if_neg fun hpromises => hcode hpromises.1, if_neg hcode,
      Function.update_apply] at hq
    split_ifs at hq with hn
    exact ⟨hq, hn⟩
  refine ⟨hs, ha, fun n hn => ?_, fun n q hq => ?_, fun n q hq => ?_, fun n q hq => ?_⟩
  · rw [filedAfter, if_pos ⟨hanswers, hcode⟩, List.mem_filter] at hn
    obtain ⟨r, hr, rfl⟩ := h.filed n hn.1
    exact ⟨r, hkeeps r hr (by simpa using hn.2), rfl⟩
  · exact h.nonce n q (hcases n q hq).1
  · exact h.requested n q (hcases n q hq).1
  · obtain ⟨hold, hne⟩ := hcases n q hq
    obtain ⟨r, hr, hgranted⟩ := h.holds n q hold
    exact ⟨r, hkeeps r hr fun heq => hne (by rw [← h.nonce n q hold, ← hgranted.nonce, heq]),
      hgranted⟩

/-- A success that promises nothing keeps every promise. -/
theorem Watching.success (h : Watching w) (hanswers : Answers w p messageSize address)
    (hpromises : ¬ Promises esp w p) (hcode : p.resultCode = pcpSuccess) (hs : Sound t)
    (ha : Alive t) (ht : decodePcpMap esp w.gm p frame now = .ok t) :
    Watching ⟨t, w.requested, filedAfter w (.packet p messageSize address frame now),
      owedAfter esp w (.packet p messageSize address frame now)⟩ := by
  have howed : owedAfter esp w (.packet p messageSize address frame now) = w.owed :=
    (if_pos hanswers).trans ((if_neg hpromises).trans (if_pos hcode))
  have hfiled : filedAfter w (.packet p messageSize address frame now) = w.filed :=
    if_neg fun hfail => hfail.2 hcode
  rw [howed, hfiled]
  cases hk : known w.gm p.nonce with
  | none =>
    obtain rfl := Except.ok.inj ((h.alive.decodePcpMap_unknown hk frame now).symm.trans ht)
    exact h
  | some m =>
    by_cases husable : esp.Usable p.externalAddress
    · obtain ⟨external, haddress, hport, hgrant⟩ :=
        h.alive.decodePcpMap_grant hk hcode husable frame now
      obtain rfl := Except.ok.inj (hgrant.symm.trans ht)
      refine ⟨hs, ha, fun n hn => exists_nonce_update (fun _ => rfl) (h.filed n hn), h.nonce,
        h.requested, fun n q hq => h.grant hk haddress hport (Or.inl ⟨hq, ?_⟩)⟩
      exact fun hn => hpromises ⟨hcode, husable, hn ▸ h.requested n q hq⟩
    · rw [h.sound.decodePcpMap_unusable h.alive hk hcode husable frame now] at ht
      cases ht

/-- A timely datagram keeps every promise. -/
theorem Watching.packet (h : Watching w)
    (hsafe : Timely esp w (.packet p messageSize address frame now)) (hs : Sound t) (ha : Alive t)
    (ht : decodePacket esp w.gm p messageSize address frame now = .ok t) :
    Watching ⟨t, w.requested, filedAfter w (.packet p messageSize address frame now),
      owedAfter esp w (.packet p messageSize address frame now)⟩ := by
  by_cases hanswers : Answers w p messageSize address
  · rw [decodePacket_of_heeded hanswers.1, decodeOpcode_of_mapResponse hanswers.2] at ht
    obtain ⟨hfiled, hremoves⟩ := hsafe hanswers
    by_cases hpromises : Promises esp w p
    · exact h.promise hanswers hpromises (hfiled hpromises) hs ha ht
    · by_cases hcode : p.resultCode = pcpSuccess
      · exact h.success hanswers hpromises hcode hs ha ht
      · exact h.failure hanswers hcode (hremoves hcode) hs ha ht
  · obtain rfl | ⟨hh, hm, -⟩ := decodePacket_ok h.sound.epoch ht
    · refine h.of_lists hs ha rfl (fun _ hn => hn) (if_neg fun hfail => hanswers hfail.1) ?_
      exact if_neg hanswers
    · exact absurd ⟨hh, hm⟩ hanswers

/-- A timely save files its record, and keeps the others. -/
theorem Watching.save (h : Watching w) {k : ℕ} {r : Pending} (hr : w.gm.pending[k]? = some r)
    {mallocOk : Bool} (hsafe : Timely esp w (.save k frame now mallocOk)) (hs : Sound t)
    (ha : Alive t)
    (ht : savePcpMapping { w.gm with pending := w.gm.pending.eraseIdx k } r.packet r.interface frame
      now mallocOk = .ok t) :
    Watching ⟨t, w.requested, filedAfter w (.save k frame now mallocOk), w.owed⟩ := by
  have he : Gm.lastReceivedEpoch { w.gm with pending := w.gm.pending.eraseIdx k } = 0 :=
    h.sound.epoch
  obtain ⟨internal, external, m, f, hinternal, -, rfl, rfl, hcases⟩ := savePcpMapping_ok he ht
  have hfresh := hsafe r hr internal hinternal
  have hfiled : filedAfter w (.save k frame now mallocOk) = r.packet.nonce :: w.filed := by
    rw [filedAfter, hr]
    rfl
  obtain ⟨rfl, -⟩ | ⟨before, q, after, hl, hq, -⟩ := hcases
  · refine h.of_records hs ha (fun m hm => ?_) (fun _ hn => hn) (fun n hn => ?_) fun _ _ hq => hq
    · obtain ⟨j, g, hm⟩ := Gm.mem_records.mp hm
      exact Gm.mem_records.mpr ⟨j, g, Gm.mem_setList_append.mpr (Or.inl hm)⟩
    · rw [hfiled, List.mem_cons] at hn
      refine hn.symm.imp_right fun hn => ⟨savedMapping r.packet internal external now w.gm.nextPointer,
        Gm.mem_records.mpr ⟨r.interface, internal.family, ?_⟩, hn.symm⟩
      exact Gm.mem_setList_append.mpr (Or.inr ⟨rfl, rfl, rfl⟩)
  · have hmem : q ∈ w.gm.portMappings r.interface internal.family := by
      rw [hl]
      exact List.mem_append_right _ List.mem_cons_self
    exact absurd hq (hfresh q hmem)

/-- **A timely step keeps every promise.** -/
theorem Watching.step (h : Watching w) {e : Event} {w' : Watched} (hsafe : Timely esp w e)
    (hw : watch esp w e = some w') : Watching w' := by
  obtain ⟨t, ht, rfl⟩ := Option.map_eq_some_iff.mp hw
  have hs : Sound t := h.sound.next ht
  have ha : Alive t := h.alive.next h.sound (removesSafely_of_timely hsafe) ht
  rw [next_eq_some] at ht
  cases e with
  | request f i nonce status =>
    obtain rfl := Except.ok.inj ht
    refine h.of_lists hs ha rfl (fun n hn => ?_) rfl rfl
    rw [requestedAfter]
    split_ifs
    exacts [hn, List.mem_cons_of_mem _ hn]
  | save k frame now mallocOk =>
    cases hr : w.gm.pending[k]? with
    | none =>
      obtain rfl := Except.ok.inj ((step_save_none hr frame now mallocOk).symm.trans ht)
      refine h.of_lists hs ha rfl (fun _ hn => hn) ?_ rfl
      rw [filedAfter, hr]
      rfl
    | some r => exact h.save hr hsafe hs ha ((step_save_some hr frame now mallocOk).symm.trans ht)
  | packet p messageSize address frame now => exact h.packet hsafe hs ha ht
  | tick clock =>
    obtain rfl := h.sound.maintainMappings_ok ht
    exact h.of_lists hs ha rfl (fun _ hn => hn) rfl rfl
  | stop =>
    refine ⟨hs, ha, fun n hn => absurd hn List.not_mem_nil, ?_, ?_, ?_⟩ <;>
      exact fun n q hq => by cases hq
  | _ => exact h.of_lists hs ha (sameRecords_of_quiet rfl ht).lists (fun _ hn => hn) rfl rfl

end Step

/-! ## Runs -/

/-- **Where every step is timely, no promise is dropped and every one is kept.** -/
theorem kept_of_timely (esp : EspNetif) (events : List Event)
    (h : ∀ v ∈ visits (watch esp) {} events, Timely esp v.1 v.2) :
    (∀ w ∈ reached (watch esp) {} events, Kept w) ∧
      ∀ v ∈ visits (watch esp) {} events, Heard esp v.1 v.2 := by
  have hwatching : ∀ w ∈ reached (watch esp) {} events, Watching w :=
    forall_reached (I := Watching) (fun _ _ _ hw hsafe ht => hw.step hsafe ht) events {} watching_init h
  refine ⟨fun w hw => (hwatching w hw).kept, fun v hv => ?_⟩
  exact (hwatching v.1 (mem_reached_of_mem_visits _ _ hv)).heard (h v hv)

/-- The station asks for a mapping and saves its record; then the router grants it. -/
def grantedAtHome : List Event :=
  [.addresses .sta home, .startIpv4 3, .request .ip4 .sta someNonce 60, .save 0 .aligned {} true,
    .packet grantResponse 60 homeRouter .aligned {}]

theorem kept_grantedAtHome : (∀ w ∈ reached (watch lwipNetif) {} grantedAtHome, Kept w) ∧
    ∀ v ∈ visits (watch lwipNetif) {} grantedAtHome, Heard lwipNetif v.1 v.2 := by
  refine kept_of_timely lwipNetif grantedAtHome fun v hv => ?_
  rcases List.mem_cons.mp hv with rfl | hv
  · trivial
  rcases List.mem_cons.mp hv with rfl | hv
  · trivial
  rcases List.mem_cons.mp hv with rfl | hv
  · trivial
  rcases List.mem_cons.mp hv with rfl | hv
  · exact fun r _ internal _ m hm => absurd hm List.not_mem_nil
  rcases List.mem_cons.mp hv with rfl | hv
  · exact fun _ => ⟨fun _ => List.mem_cons_self, fun hcode => absurd rfl hcode⟩
  · cases hv

/-- The router's answer is decoded before the station saves its record. -/
def overtakenAtHome : List Event :=
  [.addresses .sta home, .startIpv4 3, .request .ip4 .sta someNonce 60,
    .packet grantResponse 60 homeRouter .aligned {}, .save 0 .aligned {} true]

/-- **An answer that overtakes the save is lost.** -/
theorem not_kept_overtakenAtHome :
    ¬ ∀ w ∈ reached (watch lwipNetif) {} overtakenAtHome, Kept w := by
  intro h
  have hany : (reached (watch lwipNetif) {} overtakenAtHome).any (fun w =>
      w.owed someNonce == some grantResponse && w.gm.pending.isEmpty &&
        w.gm.records.all fun m => m.type == .request) = true := by decide +kernel
  obtain ⟨w, hw, hlost⟩ := List.any_eq_true.mp hany
  simp only [Bool.and_eq_true, beq_iff_eq, List.isEmpty_iff, List.all_eq_true] at hlost
  obtain ⟨⟨howed, hpending⟩, hrequest⟩ := hlost
  obtain ⟨m, hm, -, hgranted⟩ := h w hw someNonce grantResponse howed fun r hr => by
    rw [hpending] at hr
    cases hr
  have htype := hrequest m hm
  rw [hgranted.type] at htype
  cases htype

end Pcp
