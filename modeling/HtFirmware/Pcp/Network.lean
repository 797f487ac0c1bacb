import HtFirmware.Pcp.InFlight
import HtFirmware.Pcp.Records
import Mathlib.Logic.Relation

/-!
# Pcp/Network — the client, its router and what lies between them

    client  ── requests ──▸  router
            ◂── answers ───            lost, repeated, late, in any order
            ◂── anything ──  others    without a record's nonce, under any address

The router answers what it gets, as often as it gets it, and an answer has the nonce of its request.
Whatever the network does with the packets, a record is granted only what the router answered to a
request of the client's, and expires when the lifetime of that answer is over, by the clock that the
client read when it arrived (`granted_promised`).

And the client sends nothing but requests: no answer, no stranger and no tick makes it send
(`sent_requests`).
-/

open Machinery

namespace Pcp

/-! ## What a step sends, files and grants -/

/-- What the client sends in an event. -/
def Gm.sentBy (gm : Gm) : Event → List Sent
  | .request f i nonce _ => [⟨gm.socket f, routerAddress gm i f, requestPacket gm f i nonce⟩]
  | _ => []

/-- **A record is granted what a response says**, which arrived at some time, for as long as it says. -/
structure Promised (esp : EspNetif) (m : PortMapping) (p : PcpPacket) (now : Timeval) : Prop where
  nonce : m.nonce = p.nonce
  result : p.resultCode = pcpSuccess
  usable : esp.Usable p.externalAddress
  address : m.external.pcpAddress = p.externalAddress
  port : m.external.port = p.externalPort
  granted : m.grantedTime = now
  expires : m.expirationTime = ⟨now.sec + (swap32 p.lifetime).toNat - 1, now.usec⟩

/-- A datagram that passes for the answer to a record's request. -/
def PassesForAnswer (gm : Gm) (p : PcpPacket) (messageSize : ℕ) (address : SockAddr) : Prop :=
  Heeded gm address ∧ p.IsMapResponse messageSize ∧ ∃ r ∈ gm.records, r.nonce = p.nonce

section Step

variable {esp : EspNetif} {gm t : Gm}

theorem sent_gmPcpStartIpv4 (gm : Gm) (fd : ℤ) : (gmPcpStartIpv4 gm fd).sent = gm.sent ∧
    (gmPcpStartIpv4 gm fd).pending = gm.pending := by
  unfold gmPcpStartIpv4
  split_ifs <;> exact ⟨rfl, rfl⟩

theorem sent_gmPcpStartIpv6 (gm : Gm) (i : GmInterfaceIndex) (fd : ℤ) :
    (gmPcpStartIpv6 gm i fd).sent = gm.sent ∧ (gmPcpStartIpv6 gm i fd).pending = gm.pending := by
  unfold gmPcpStartIpv6
  dsimp only
  split_ifs <;> exact ⟨rfl, rfl⟩

/-- One list loses records. -/
theorem mem_records_of_setList {i : GmInterfaceIndex} {f : Family} {ms : List PortMapping}
    (hsub : ms ⊆ gm.portMappings i f) {r : PortMapping} (hmem : r ∈ (gm.setList i f ms).records) :
    r ∈ gm.records := by
  obtain ⟨j, g, hr⟩ := Gm.mem_records.mp hmem
  refine Gm.mem_records.mpr ⟨j, g, ?_⟩
  rw [Gm.portMappings_setList] at hr
  split_ifs at hr with hjg
  · obtain ⟨rfl, rfl⟩ := hjg
    exact hsub hr
  · exact hr

theorem removePcpMapping_keeps {m : PortMapping} (ht : removePcpMapping gm m = .ok t) :
    t.sent = gm.sent ∧ t.pending = gm.pending ∧ ∀ r ∈ t.records, r ∈ gm.records := by
  obtain ⟨f, -, rfl⟩ | ⟨f, head, second, rest, hl, -, rfl⟩ | ⟨rfl, -⟩ := removePcpMapping_ok ht
  · exact ⟨rfl, rfl, fun r hr => mem_records_of_setList (List.tail_subset _) hr⟩
  · have hsub : head :: rest ⊆ gm.portMappings .sta f := by
      rw [hl]
      exact List.cons_subset_cons head (List.subset_cons_self second rest)
    exact ⟨rfl, rfl, fun r hr => mem_records_of_setList hsub hr⟩
  · exact ⟨rfl, rfl, fun r hr => hr⟩

/-- **What a datagram does**: it sends nothing, files nothing, and grants a record at most what it says. -/
theorem decodePacket_keeps (h : Sound gm) {p : PcpPacket} {messageSize : ℕ} {address : SockAddr}
    {frame : Frame} {now : Timeval}
    (ht : decodePacket esp gm p messageSize address frame now = .ok t) :
    t.sent = gm.sent ∧ t.pending = gm.pending ∧ ∀ m ∈ t.records, m ∈ gm.records ∨
      PassesForAnswer gm p messageSize address ∧ Promised esp m p now := by
  obtain rfl | ⟨hheeded, hresponse, ht⟩ := decodePacket_ok h.epoch ht
  · exact ⟨rfl, rfl, fun m hm => .inl hm⟩
  obtain ⟨rfl, -⟩ | ⟨m, hm, hnonce, ⟨-, ht⟩ | ⟨hresult, husable, external, hexternal, rfl⟩⟩ :=
    h.decodePcpMap_ok ht
  · exact ⟨rfl, rfl, fun m hm => .inl hm⟩
  · obtain ⟨hsent, hpending, hrecords⟩ := removePcpMapping_keeps ht
    exact ⟨hsent, hpending, fun r hr => .inl (hrecords r hr)⟩
  · refine ⟨rfl, rfl, fun r hr => ?_⟩
    obtain ⟨external', hx, haddress, hport⟩ := externalSockaddr_of_usable husable frame
    obtain rfl := Option.some.inj (hexternal.symm.trans hx)
    obtain ⟨i, f, hr⟩ := Gm.mem_records.mp hr
    obtain ⟨r', hr', rfl⟩ := List.mem_map.mp hr
    have hmem : r' ∈ gm.records := Gm.mem_records.mpr ⟨i, f, hr'⟩
    split_ifs with hpointer
    · obtain ⟨j, g, hm⟩ := Gm.mem_records.mp hm
      obtain rfl := h.eq_of_pointer hr' hm hpointer
      exact .inr ⟨⟨hheeded, hresponse, r', hmem, hnonce⟩,
        ⟨hnonce, hresult, husable, haddress, hport, rfl, rfl⟩⟩
    · exact .inl hmem

/-- **What a save does**: it sends nothing, and files a record for the request, which is not granted. -/
theorem savePcpMapping_keeps (h : Sound gm) {p : PcpPacket} {i : GmInterfaceIndex} {frame : Frame}
    {now : Timeval} {mallocOk : Bool} (ht : savePcpMapping gm p i frame now mallocOk = .ok t) :
    t.sent = gm.sent ∧ t.pending = gm.pending ∧ ∀ m ∈ t.records, m ∈ gm.records ∨
      m.nonce = p.nonce ∧ m.type = .request := by
  obtain ⟨internal, external, m, f, -, -, -, rfl, ⟨rfl, -⟩ | ⟨before, r, after, hl, -, rfl⟩⟩ :=
    savePcpMapping_ok h.epoch ht
  · refine ⟨rfl, rfl, fun m hm => ?_⟩
    obtain ⟨j, g, hm⟩ := Gm.mem_records.mp hm
    obtain hm | ⟨rfl, -⟩ := Gm.mem_setList_append.mp hm
    · exact .inl (Gm.mem_records.mpr ⟨j, g, hm⟩)
    · exact .inr ⟨rfl, rfl⟩
  · refine ⟨rfl, rfl, fun m hmem => ?_⟩
    obtain ⟨j, g, hm⟩ := Gm.mem_records.mp hmem
    rw [Gm.portMappings_setList] at hm
    split_ifs at hm with hjg
    · obtain ⟨rfl, rfl⟩ := hjg
      obtain hm | hm := List.mem_append.mp hm
      · refine .inl (Gm.mem_records.mpr ⟨j, g, ?_⟩)
        rw [hl]
        exact List.mem_append_left _ hm
      · rw [List.mem_singleton.mp hm]
        exact .inr ⟨rfl, rfl⟩
    · exact .inl (Gm.mem_records.mpr ⟨j, g, hm⟩)

/-- **What a step adds**: to what was sent, what the client sends in the event; to the requests in flight,
these; to the records, one for a request in flight, or a grant of the datagram's. -/
structure Adds (esp : EspNetif) (gm : Gm) (e : Event) (t : Gm) : Prop where
  sent : t.sent = gm.sent ++ gm.sentBy e
  pending : ∀ r ∈ t.pending, r ∈ gm.pending ∨ ∃ s ∈ gm.sentBy e, s.packet = r.packet
  records : ∀ m ∈ t.records, m ∈ gm.records ∨
    (m.type = .request ∧ ∃ r ∈ gm.pending, r.packet.nonce = m.nonce) ∨
    ∃ p messageSize address frame now, e = .packet p messageSize address frame now ∧
      PassesForAnswer gm p messageSize address ∧ Promised esp m p now

theorem Adds.of_same {e : Event} (hsent : t.sent = gm.sent ++ gm.sentBy e)
    (hpending : ∀ r ∈ t.pending, r ∈ gm.pending ∨ ∃ s ∈ gm.sentBy e, s.packet = r.packet)
    (hrecords : t.portMappings = gm.portMappings) : Adds esp gm e t := by
  refine ⟨hsent, hpending, fun m hm => .inl ?_⟩
  obtain ⟨i, f, hm⟩ := Gm.mem_records.mp hm
  exact Gm.mem_records.mpr ⟨i, f, hrecords ▸ hm⟩

/-- **One step.** -/
theorem adds_step (h : Sound gm) {e : Event} (ht : step esp gm e = .ok t) : Adds esp gm e t := by
  cases e with
  | addresses i interface =>
    obtain rfl := Except.ok.inj ht
    exact .of_same (List.append_nil _).symm (fun r hr => .inl hr) rfl
  | startIpv4 fd =>
    obtain rfl := Except.ok.inj ht
    obtain ⟨hsent, hpending⟩ := sent_gmPcpStartIpv4 gm fd
    exact .of_same (hsent.trans (List.append_nil _).symm) (fun r hr => .inl (hpending ▸ hr))
      (sameRecords_gmPcpStartIpv4 gm fd).lists
  | startIpv6 i fd =>
    obtain rfl := Except.ok.inj ht
    obtain ⟨hsent, hpending⟩ := sent_gmPcpStartIpv6 gm i fd
    exact .of_same (hsent.trans (List.append_nil _).symm) (fun r hr => .inl (hpending ▸ hr))
      (sameRecords_gmPcpStartIpv6 gm i fd).lists
  | request f i nonce status =>
    obtain rfl := Except.ok.inj ht
    refine .of_same rfl (fun r hr => ?_) rfl
    change r ∈ (if status < 0 then gm.pending else gm.pending ++ _) at hr
    split_ifs at hr
    · exact .inl hr
    · obtain hr | hr := List.mem_append.mp hr
      · exact .inl hr
      · rw [List.mem_singleton.mp hr]
        exact .inr ⟨_, List.mem_singleton_self _, rfl⟩
  | save k frame now mallocOk =>
    cases hr : gm.pending[k]? with
    | none =>
      rw [step_save_none hr] at ht
      obtain rfl := Except.ok.inj ht
      exact .of_same (List.append_nil _).symm (fun r hr => .inl hr) rfl
    | some r =>
      rw [step_save_some hr] at ht
      have hu : Sound { gm with pending := gm.pending.eraseIdx k } := h.congr rfl rfl rfl
      obtain ⟨hsent, hpending, hrecords⟩ := savePcpMapping_keeps hu ht
      refine ⟨hsent.trans (List.append_nil _).symm, fun r' hr' => ?_, fun m hm => ?_⟩
      · rw [hpending] at hr'
        exact .inl (List.mem_of_mem_eraseIdx hr')
      · exact (hrecords m hm).imp_right fun ⟨hnonce, htype⟩ =>
          .inl ⟨htype, r, List.mem_of_getElem? hr, hnonce.symm⟩
  | packet p messageSize address frame now =>
    obtain ⟨hsent, hpending, hrecords⟩ := decodePacket_keeps h ht
    refine ⟨hsent.trans (List.append_nil _).symm, fun r hr => .inl (hpending ▸ hr), fun m hm => ?_⟩
    exact (hrecords m hm).imp_right fun hgranted => .inr ⟨p, messageSize, address, frame, now, rfl,
      hgranted⟩
  | tick clock =>
    obtain rfl := h.maintainMappings_ok ht
    exact .of_same (List.append_nil _).symm (fun r hr => .inl hr) rfl
  | stop =>
    obtain ⟨hl, -, -, hpending, hsent⟩ := gmPcpStop_ok ht
    refine ⟨hsent.trans (List.append_nil _).symm, fun r hr => .inl (hpending ▸ hr), fun m hm => ?_⟩
    obtain ⟨i, f, hm⟩ := Gm.mem_records.mp hm
    rw [hl] at hm
    exact absurd hm List.not_mem_nil

end Step

/-! ## What is sent in a run -/

section Sending

variable {esp : EspNetif}

/-- What a run adds to what was sent. -/
theorem sent_of_foldlM : ∀ (es : List Event) {gm t : Gm}, Sound gm →
    es.foldlM (next esp) gm = some t →
    t.sent = gm.sent ++ (visits (next esp) gm es).flatMap fun v => v.1.sentBy v.2 := by
  intro es
  induction es with
  | nil =>
    intro gm t _ ht
    obtain rfl := Option.some.inj ht
    exact (List.append_nil _).symm
  | cons e es ih =>
    intro gm t h ht
    obtain ⟨u, hu, ht⟩ := Option.bind_eq_some_iff.mp ht
    rw [visits_of_some hu, List.flatMap_cons, ih (h.next hu) ht,
      (adds_step h (next_eq_some.mp hu)).sent, List.append_assoc]

/-- **In every run the client sends its requests, in their order, and nothing else.** -/
theorem sent_requests (es : List Event) {t : Gm} (ht : es.foldlM (next esp) {} = some t) :
    t.sent = (visits (next esp) {} es).flatMap fun v => v.1.sentBy v.2 :=
  (sent_of_foldlM es sound_init ht).trans (List.nil_append _)

theorem sent_requests_grantedAtHome : ∃ t, grantedAtHome.foldlM (next lwipNetif) {} = some t ∧
    t.sent = (visits (next lwipNetif) {} grantedAtHome).flatMap fun v => v.1.sentBy v.2 := by
  have hrun : (grantedAtHome.foldlM (next lwipNetif) {}).isSome = true := by decide +kernel
  obtain ⟨t, ht⟩ := Option.isSome_iff_exists.mp hrun
  exact ⟨t, ht, sent_requests grantedAtHome ht⟩

end Sending

/-! ## The network -/

/-- An answer of the router's to a request, at the time that the client read when it arrived. -/
structure Arrival where
  request : Sent
  answer : PcpPacket
  now : Timeval

/-- The client, the answers that the router ever sent, each with the request it got, and those that
arrived, each as often as it did. -/
structure Network where
  gm : Gm := {}
  answers : List (Sent × PcpPacket) := []
  arrivals : List Arrival := []

/-- An event of the client's own. -/
def Event.Local : Event → Prop
  | .packet _ _ _ _ _ => False
  | _ => True

/-- A router that answers a request with its nonce. -/
def CopiesNonce (router : Sent → PcpPacket → Prop) : Prop :=
  ∀ s p, router s p → p.nonce = s.packet.nonce

/-- **One move**, given how the router may answer: of the client; of the router, to any packet that was
ever sent; an answer arrives, any that was ever sent, from any address and cut off anywhere; or any other
datagram, from any address as well, that does not pass for an answer to a record's request. -/
inductive Move (esp : EspNetif) (router : Sent → PcpPacket → Prop) : Network → Network → Prop
  | client {n : Network} {e : Event} {t : Gm} : e.Local → step esp n.gm e = .ok t →
    Move esp router n { n with gm := t }
  | answer {n : Network} {s : Sent} {p : PcpPacket} : s ∈ n.gm.sent → router s p →
    Move esp router n { n with answers := (s, p) :: n.answers }
  | deliver {n : Network} {a : Sent × PcpPacket} {messageSize : ℕ} {address : SockAddr} {frame : Frame}
      {now : Timeval} {t : Gm} : a ∈ n.answers →
    step esp n.gm (.packet a.2 messageSize address frame now) = .ok t →
    Move esp router n { n with gm := t, arrivals := ⟨a.1, a.2, now⟩ :: n.arrivals }
  | stranger {n : Network} {p : PcpPacket} {messageSize : ℕ} {address : SockAddr} {frame : Frame}
      {now : Timeval} {t : Gm} : ¬ PassesForAnswer n.gm p messageSize address →
    step esp n.gm (.packet p messageSize address frame now) = .ok t →
    Move esp router n { n with gm := t }

/-- **What holds whatever the network does**: what is in flight was sent, every record is one of a request,
every answer is one to a request, what arrives was answered, and what is granted was promised. -/
structure Honest (esp : EspNetif) (router : Sent → PcpPacket → Prop) (n : Network) : Prop where
  sound : Sound n.gm
  pending : ∀ r ∈ n.gm.pending, ∃ s ∈ n.gm.sent, s.packet = r.packet
  records : ∀ m ∈ n.gm.records, ∃ s ∈ n.gm.sent, s.packet.nonce = m.nonce
  answers : ∀ a ∈ n.answers, a.1 ∈ n.gm.sent ∧ router a.1 a.2
  arrivals : ∀ a ∈ n.arrivals, (a.request, a.answer) ∈ n.answers
  granted : ∀ m ∈ n.gm.records, m.type = .granted → ∃ a ∈ n.arrivals, Promised esp m a.answer a.now

section Network

variable {esp : EspNetif} {router : Sent → PcpPacket → Prop} {n n' : Network}

theorem honest_init : Honest esp router {} where
  sound := sound_init
  pending _ h := absurd h List.not_mem_nil
  records _ h := absurd h List.not_mem_nil
  answers _ h := absurd h List.not_mem_nil
  arrivals _ h := absurd h List.not_mem_nil
  granted _ h := absurd h List.not_mem_nil

/-- A step of the client, where what is granted in it was promised by an answer that arrived. -/
theorem Honest.step (h : Honest esp router n) {e : Event} {t : Gm} (ht : step esp n.gm e = .ok t)
    {arrivals : List Arrival} (hmore : n.arrivals ⊆ arrivals)
    (harrivals : ∀ a ∈ arrivals, (a.request, a.answer) ∈ n.answers)
    (hpromised : ∀ p messageSize address frame now, e = .packet p messageSize address frame now →
      PassesForAnswer n.gm p messageSize address → ∃ a ∈ arrivals, a.answer = p ∧ a.now = now) :
    Honest esp router { n with gm := t, arrivals := arrivals } := by
  have hadds := adds_step h.sound ht
  have hsent : ∀ s ∈ n.gm.sent, s ∈ t.sent := fun s hs => hadds.sent ▸ List.mem_append_left _ hs
  refine ⟨h.sound.step ht, fun r hr => ?_, fun m hm => ?_, fun a ha => ?_, harrivals, fun m hm htype => ?_⟩
  · obtain hr | ⟨s, hs, hpacket⟩ := hadds.pending r hr
    · obtain ⟨s, hs, hpacket⟩ := h.pending r hr
      exact ⟨s, hsent s hs, hpacket⟩
    · exact ⟨s, hadds.sent ▸ List.mem_append_right _ hs, hpacket⟩
  · obtain hm | ⟨-, r, hr, hnonce⟩ | ⟨p, _, _, _, now, -, ⟨-, -, r, hr, hnonce⟩, hpromise⟩ :=
      hadds.records m hm
    · obtain ⟨s, hs, hs'⟩ := h.records m hm
      exact ⟨s, hsent s hs, hs'⟩
    · obtain ⟨s, hs, hpacket⟩ := h.pending r hr
      exact ⟨s, hsent s hs, by rw [hpacket, hnonce]⟩
    · obtain ⟨s, hs, hs'⟩ := h.records r hr
      exact ⟨s, hsent s hs, hs'.trans (hnonce.trans hpromise.nonce.symm)⟩
  · exact ⟨hsent _ (h.answers a ha).1, (h.answers a ha).2⟩
  · obtain hm | ⟨hrequest, -⟩ | ⟨p, messageSize, address, frame, now, he, hpasses, hpromise⟩ :=
      hadds.records m hm
    · obtain ⟨a, ha, hpromise⟩ := h.granted m hm htype
      exact ⟨a, hmore ha, hpromise⟩
    · rw [hrequest] at htype
      cases htype
    · obtain ⟨a, ha, rfl, rfl⟩ := hpromised p messageSize address frame now he hpasses
      exact ⟨a, ha, hpromise⟩

/-- **Every move keeps it.** -/
theorem Honest.move (h : Honest esp router n) (hmove : Move esp router n n') : Honest esp router n' := by
  cases hmove with
  | client hlocal ht =>
    refine h.step ht (List.Subset.refl _) h.arrivals fun p messageSize address frame now he => ?_
    rw [he] at hlocal
    exact hlocal.elim
  | answer hs hrouter =>
    exact ⟨h.sound, h.pending, h.records, List.forall_mem_cons.mpr ⟨⟨hs, hrouter⟩, h.answers⟩,
      fun a ha => List.mem_cons_of_mem _ (h.arrivals a ha), h.granted⟩
  | deliver ha ht =>
    refine h.step ht (List.subset_cons_self _ _) (List.forall_mem_cons.mpr ⟨ha, h.arrivals⟩) ?_
    intro p messageSize address frame now he _
    obtain ⟨rfl, -, -, -, rfl⟩ := Event.packet.inj he
    exact ⟨_, List.mem_cons_self, rfl, rfl⟩
  | stranger hstranger ht =>
    refine h.step ht (List.Subset.refl _) h.arrivals fun p messageSize address frame now he hpasses => ?_
    obtain ⟨rfl, rfl, rfl, -⟩ := Event.packet.inj he
    exact absurd hpasses hstranger

theorem honest_of_moves (hrun : Relation.ReflTransGen (Move esp router) {} n) : Honest esp router n := by
  induction hrun with
  | refl => exact honest_init
  | tail _ hmove ih => exact ih.move hmove

/-- **Whatever the network does, a record is granted only what the router answered to a request of its
own**, and expires as the answer said, counted from one of its arrivals. -/
theorem granted_promised (hrouter : CopiesNonce router)
    (hrun : Relation.ReflTransGen (Move esp router) {} n) {m : PortMapping} (hm : m ∈ n.gm.records)
    (hgranted : m.type = .granted) :
    ∃ a ∈ n.arrivals, a.request ∈ n.gm.sent ∧ router a.request a.answer ∧
      a.request.packet.nonce = m.nonce ∧ Promised esp m a.answer a.now := by
  have h := honest_of_moves hrun
  obtain ⟨a, ha, hpromised⟩ := h.granted m hm hgranted
  obtain ⟨hsent, hanswers⟩ := h.answers _ (h.arrivals a ha)
  exact ⟨a, ha, hsent, hanswers, (hrouter _ _ hanswers).symm.trans hpromised.nonce.symm, hpromised⟩

end Network

/-- Events of the client's own are moves. -/
theorem moves_of_foldlM {esp : EspNetif} {router : Sent → PcpPacket → Prop}
    {answers : List (Sent × PcpPacket)} {arrivals : List Arrival} : ∀ (es : List Event) {gm t : Gm},
    (∀ e ∈ es, e.Local) → es.foldlM (next esp) gm = some t →
    Relation.ReflTransGen (Move esp router) ⟨gm, answers, arrivals⟩ ⟨t, answers, arrivals⟩ := by
  intro es
  induction es with
  | nil =>
    intro gm t _ ht
    obtain rfl := Option.some.inj ht
    exact .refl
  | cons e es ih =>
    intro gm t hlocal ht
    obtain ⟨u, hu, ht⟩ := Option.bind_eq_some_iff.mp ht
    obtain ⟨he, hlocal⟩ := List.forall_mem_cons.mp hlocal
    exact .head (.client he (next_eq_some.mp hu)) (ih hlocal ht)

/-- A router that says yes. -/
def grantingRouter (s : Sent) (p : PcpPacket) : Prop :=
  p.opcode = s.packet.opcode ||| pcpResponse ∧ p.nonce = s.packet.nonce

/-- The station at home asks, saves and is answered. -/
theorem granted_promised_atHome : ∃ n : Network,
    Relation.ReflTransGen (Move lwipNetif grantingRouter) {} n ∧
    ∃ m ∈ n.gm.records, m.type = .granted ∧
      ∃ a ∈ n.arrivals, a.request ∈ n.gm.sent ∧ grantingRouter a.request a.answer ∧
        a.request.packet.nonce = m.nonce ∧ Promised lwipNetif m a.answer a.now := by
  have hasked : ((savedAtHome.foldlM (next lwipNetif) {}).any fun t =>
      t.sent.any (fun s => s.packet.nonce == someNonce && s.packet.opcode == pcpMap) &&
        (next lwipNetif t (.packet grantResponse 60 homeRouter .aligned {})).any fun u =>
          u.records.any fun m => m.type == .granted) = true := by decide +kernel
  obtain ⟨t, ht, hasked⟩ := (Option.any_eq_true _ _).mp hasked
  obtain ⟨hsent, hgranted⟩ := Bool.and_eq_true_iff.mp hasked
  obtain ⟨s, hs, hsent⟩ := List.any_eq_true.mp hsent
  obtain ⟨u, hu, hgranted⟩ := (Option.any_eq_true _ _).mp hgranted
  obtain ⟨m, hm, hgranted⟩ := List.any_eq_true.mp hgranted
  obtain ⟨hnonce, hopcode⟩ := Bool.and_eq_true_iff.mp hsent
  have hrouter : grantingRouter s grantResponse :=
    ⟨congrArg (· ||| pcpResponse) (eq_of_beq hopcode).symm, (eq_of_beq hnonce).symm⟩
  have hlocal : ∀ e ∈ savedAtHome, e.Local := by
    unfold savedAtHome
    simp [Event.Local]
  have hsaved : Relation.ReflTransGen (Move lwipNetif grantingRouter) {} ⟨t, [], []⟩ :=
    moves_of_foldlM savedAtHome hlocal ht
  have hanswered : Move lwipNetif grantingRouter ⟨t, [], []⟩ ⟨t, [(s, grantResponse)], []⟩ :=
    .answer hs hrouter
  have harrived : Move lwipNetif grantingRouter ⟨t, [(s, grantResponse)], []⟩
      ⟨u, [(s, grantResponse)], [⟨s, grantResponse, {}⟩]⟩ :=
    .deliver (a := (s, grantResponse)) (List.mem_singleton_self _) (next_eq_some.mp hu)
  have hrun := (hsaved.tail hanswered).tail harrived
  exact ⟨_, hrun, m, hm, eq_of_beq hgranted,
    granted_promised (fun _ _ h => h.2) hrun hm (eq_of_beq hgranted)⟩

end Pcp
