import HtFirmware.Pcp.System

/-!
# Pcp/Acceptance — which datagrams change which records?

Anyone can send the client a datagram.  It should change the records only if it is a MAP response of
the router whose nonce is that of a record (`Accepted`), then change no other record
(`OnlyNonce`), and in every case be decoded to the end.

Three things break this: a source for which no interface can be selected, as a null interface is
followed; a failure response for a record that is not at the head of a station list, as the removal
then frees another record or never ends; and a grant of an unusable address, as the record's null
interface is followed.  `decodesWell_iff_decodesSafely` says that nothing else does.
-/

open Machinery

namespace Pcp

/-! ## Well-behaved decoding -/

/-- A datagram that may change a record. -/
def Accepted (gm : Gm) (p : PcpPacket) (messageSize : ℕ) (address : SockAddr) : Prop :=
  Heeded gm address ∧ p.IsMapResponse messageSize ∧ ∃ m ∈ gm.records, m.nonce = p.nonce

/-- The records of a list with another nonce. -/
def withoutNonce (nonce : Bytes 12) (ms : List PortMapping) : List PortMapping :=
  ms.filter fun m => m.nonce ≠ nonce

/-- No record changed but one with that nonce: the others are in their places, and not freed. -/
structure OnlyNonce (gm : Gm) (nonce : Bytes 12) (t : Gm) : Prop where
  lists : ∀ i f, withoutNonce nonce (t.portMappings i f) = withoutNonce nonce (gm.portMappings i f)
  freed : ∀ q ∈ t.freed, q ∈ gm.freed ∨ ∃ m ∈ gm.records, m.pointer = q ∧ m.nonce = nonce

/-- No record changed. -/
def Untouched (gm t : Gm) : Prop := t.portMappings = gm.portMappings ∧ t.freed = gm.freed

/-- **A datagram is decoded to the end, and changes what it may.** -/
def DecodesWell (esp : EspNetif) (gm : Gm) (e : Event) : Prop :=
  match e with
  | .packet p messageSize address _ _ => ∃ t, step esp gm e = .ok t ∧
      (Accepted gm p messageSize address → OnlyNonce gm p.nonce t) ∧
      (¬ Accepted gm p messageSize address → Untouched gm t)
  | _ => True

/-- The record a nonce leads to. -/
def known (gm : Gm) (nonce : Bytes 12) : Option PortMapping :=
  gm.records.find? fun m => m.nonce = nonce

/-- A record that can be removed: it heads a list of the station, or the station has none. -/
def RemovalSafe (gm : Gm) (m : PortMapping) : Prop :=
  (∃ f, headsList gm m.pointer f = true) ∨ ∀ f, gm.portMappings .sta f = []

/-- **What it takes**: an interface can be selected, and a MAP response that leads to a record is a
failure for one that can be removed, or grants it a usable address. -/
def DecodesSafely (esp : EspNetif) (gm : Gm) (e : Event) : Prop :=
  match e with
  | .packet p messageSize address _ _ => interfaceForSockaddr gm address ≠ none ∧
      (Heeded gm address → p.IsMapResponse messageSize → ∀ m, known gm p.nonce = some m →
        if p.resultCode = pcpSuccess then esp.Usable p.externalAddress else RemovalSafe gm m)
  | _ => True

/-! ## Live records -/

/-- No record of a list has been freed. -/
structure Alive (gm : Gm) : Prop where
  live : ∀ i f, ∀ m ∈ gm.portMappings i f, m.pointer ∉ gm.freed
  bound : ∀ q ∈ gm.freed, q < gm.nextPointer

theorem alive_init : Alive {} := ⟨fun _ _ _ hm => absurd hm List.not_mem_nil,
  fun _ hq => absurd hq List.not_mem_nil⟩

section Alive

variable {esp : EspNetif} {gm t : Gm}

/-- Lists may lose records, and have them rewritten in place. -/
theorem Alive.of_subset (h : Alive gm) (hf : t.freed = gm.freed) (hp : t.nextPointer = gm.nextPointer)
    (hsub : ∀ i f, ∀ m ∈ t.portMappings i f, ∃ r ∈ gm.portMappings i f, r.pointer = m.pointer) :
    Alive t := by
  refine ⟨fun i f m hm => ?_, by rw [hf, hp]; exact h.bound⟩
  obtain ⟨r, hr, hrm⟩ := hsub i f m hm
  rw [hf, ← hrm]
  exact h.live i f r hr

theorem Alive.congr (h : Alive gm) (hl : t.portMappings = gm.portMappings) (hf : t.freed = gm.freed)
    (hp : t.nextPointer = gm.nextPointer) : Alive t :=
  h.of_subset hf hp fun _ _ m hm => ⟨m, hl ▸ hm, rfl⟩

theorem Alive.setList (h : Alive gm) {i : GmInterfaceIndex} {f : Family} {ms : List PortMapping}
    (hsub : ∀ m ∈ ms, ∃ r ∈ gm.portMappings i f, r.pointer = m.pointer) :
    Alive (gm.setList i f ms) := by
  refine h.of_subset rfl rfl fun j g m hm => ?_
  rw [Gm.portMappings_setList] at hm
  split_ifs at hm with hjg
  · obtain ⟨rfl, rfl⟩ := hjg
    exact hsub m hm
  · exact ⟨m, hm, rfl⟩

/-- A record that was just allocated is live. -/
theorem Alive.add (h : Alive gm) (i : GmInterfaceIndex) (f : Family) {m : PortMapping}
    (hm : m.pointer = gm.nextPointer) :
    Alive (gm.setList i f (gm.portMappings i f ++ [m])).allocated := by
  refine ⟨fun j g r hr => ?_, fun q hq => (h.bound q hq).trans (Nat.lt_succ_self _)⟩
  obtain hr | ⟨rfl, -, -⟩ := Gm.mem_setList_append.mp hr
  · exact h.live j g r hr
  · rw [hm]
    exact fun hfreed => (h.bound _ hfreed).false

/-- Where every record is live, a nonce is looked up without reading a freed one. -/
theorem Alive.findMapping (h : Alive gm) (nonce : Bytes 12) :
    findMapping gm nonce = .ok (known gm nonce) := by
  have hwalk : ∀ l : List PortMapping, (∀ m ∈ l, m.pointer ∉ gm.freed) →
      findIn gm.freed nonce l = .ok (l.find? fun m => m.nonce = nonce) := by
    intro l
    induction l with
    | nil => intro _; rfl
    | cons m ms ih =>
      intro hl
      obtain ⟨hm, hms⟩ := List.forall_mem_cons.mp hl
      rw [findIn, if_neg hm]
      by_cases hn : m.nonce = nonce
      · rw [if_pos hn, List.find?_cons_of_pos (by simpa using hn)]
      · rw [if_neg hn, ih hms, List.find?_cons_of_neg (by simpa using hn)]
  refine hwalk gm.records fun m hm => ?_
  obtain ⟨i, f, hm⟩ := Gm.mem_records.mp hm
  exact h.live i f m hm

theorem known_mem {nonce : Bytes 12} {m : PortMapping} (h : known gm nonce = some m) :
    m ∈ gm.records ∧ m.nonce = nonce :=
  ⟨List.mem_of_find?_eq_some h, by simpa using List.find?_some h⟩

theorem known_eq_none {nonce : Bytes 12} :
    known gm nonce = none ↔ ∀ m ∈ gm.records, m.nonce ≠ nonce := by
  rw [known, List.find?_eq_none]
  simp

end Alive

/-! ## Removals -/

section Removal

variable {gm t : Gm} {m : PortMapping}

/-- A safe removal unlinks the head of a list, or does nothing. -/
theorem removePcpMapping_of_safe (h : RemovalSafe gm m) :
    (removePcpMapping gm m = .ok gm ∧ ∀ f, gm.portMappings .sta f = []) ∨
    ∃ f, headsList gm m.pointer f = true ∧
      removePcpMapping gm m = .ok (gm.setList .sta f (gm.portMappings .sta f).tail) := by
  unfold removePcpMapping
  by_cases h4 : headsList gm m.pointer .ip4 = true
  · exact Or.inr ⟨.ip4, h4, if_pos h4⟩
  · rw [if_neg h4]
    by_cases h6 : headsList gm m.pointer .ip6 = true
    · exact Or.inr ⟨.ip6, h6, if_pos h6⟩
    · rw [if_neg h6]
      rcases h with ⟨f, hf⟩ | hempty
      · cases f
        exacts [absurd hf h4, absurd hf h6]
      · refine Or.inl ⟨?_, hempty⟩
        rw [removeAfterHead, hempty, removeAfterHead, hempty, removeAfterHead]

/-- Any other removal that ends frees the record before the one it unlinks. -/
theorem removePcpMapping_of_unsafe (h : ¬ RemovalSafe gm m) (ht : removePcpMapping gm m = .ok t) :
    ∃ f head second rest, gm.portMappings .sta f = head :: second :: rest ∧
      second.pointer = m.pointer ∧ t.freed = head.pointer :: gm.freed := by
  obtain ⟨f, hf, -⟩ | ⟨f, head, second, rest, hl, hs, rfl⟩ | ⟨-, hempty⟩ := removePcpMapping_ok ht
  · exact absurd (Or.inl ⟨f, hf⟩) h
  · exact ⟨f, head, second, rest, hl, hs, rfl⟩
  · exact absurd (Or.inr hempty) h

/-- A record that heads a list of the station is its head. -/
theorem Sound.cons_of_headsList (h : Sound gm) (hm : m ∈ gm.records) {f : Family}
    (hf : headsList gm m.pointer f = true) :
    gm.portMappings .sta f = m :: (gm.portMappings .sta f).tail := by
  obtain ⟨i, g, hm⟩ := Gm.mem_records.mp hm
  cases hl : gm.portMappings .sta f with
  | nil =>
    rw [headsList, hl] at hf
    cases hf
  | cons head rest =>
    rw [headsList, hl] at hf
    have hhead : head ∈ gm.portMappings .sta f := by
      rw [hl]
      exact List.mem_cons_self
    rw [h.eq_of_pointer hhead hm (by simpa using hf)]
    rfl

end Removal

/-! ## MAP responses -/

section Response

variable {esp : EspNetif} {gm t : Gm} {m : PortMapping} {p : PcpPacket}

/-- A response whose nonce is unknown changes nothing. -/
theorem Alive.decodePcpMap_unknown (h : Alive gm) (hk : known gm p.nonce = none) (frame : Frame)
    (now : Timeval) : decodePcpMap esp gm p frame now = .ok gm := by
  unfold decodePcpMap
  rw [h.findMapping, hk]
  rfl

/-- A failure response removes the record it leads to. -/
theorem Alive.decodePcpMap_failure (h : Alive gm) (hk : known gm p.nonce = some m)
    (hcode : p.resultCode ≠ pcpSuccess) (frame : Frame) (now : Timeval) :
    decodePcpMap esp gm p frame now = removePcpMapping gm m := by
  unfold decodePcpMap
  rw [h.findMapping, hk]
  exact if_pos hcode

/-- A success response with an address that is not usable follows the record's null interface. -/
theorem Sound.decodePcpMap_unusable (hs : Sound gm) (h : Alive gm) (hk : known gm p.nonce = some m)
    (hcode : p.resultCode = pcpSuccess) (husable : ¬ esp.Usable p.externalAddress) (frame : Frame)
    (now : Timeval) : decodePcpMap esp gm p frame now = .error .nullInterface := by
  obtain ⟨i, f, hm⟩ := Gm.mem_records.mp (known_mem hk).1
  have hunset := hs.unset i f m hm
  unfold decodePcpMap
  rw [h.findMapping, hk]
  refine (if_neg (not_not_intro hcode)).trans ((if_pos husable).trans ?_)
  rw [hunset]
  rfl

/-- A success response with a usable address grants the record it leads to. -/
theorem Alive.decodePcpMap_grant (h : Alive gm) (hk : known gm p.nonce = some m)
    (hcode : p.resultCode = pcpSuccess) (husable : esp.Usable p.externalAddress) (frame : Frame)
    (now : Timeval) : ∃ external, external.pcpAddress = p.externalAddress ∧
      external.port = p.externalPort ∧ decodePcpMap esp gm p frame now
        = .ok (gm.update m.pointer fun r => r.grant external now p.lifetime) := by
  obtain ⟨external, hx, haddress, hport⟩ := externalSockaddr_of_usable husable frame
  refine ⟨external, haddress, hport, ?_⟩
  unfold decodePcpMap
  rw [h.findMapping, hk]
  refine (if_neg (not_not_intro hcode)).trans ((if_neg (not_not_intro husable)).trans ?_)
  rw [hx]
  rfl

/-- Writing through a pointer that leads to records of one nonce keeps the others. -/
theorem withoutNonce_map {nonce : Bytes 12} {pointer : ℕ} {write : PortMapping → PortMapping}
    (hw : ∀ r, (write r).nonce = r.nonce) : ∀ l : List PortMapping,
    (∀ r ∈ l, r.pointer = pointer → r.nonce = nonce) →
      withoutNonce nonce (l.map fun r => if r.pointer = pointer then write r else r)
        = withoutNonce nonce l := by
  intro l
  unfold withoutNonce
  induction l with
  | nil => intro _; rfl
  | cons r rs ih =>
    intro hl
    obtain ⟨hr, hrs⟩ := List.forall_mem_cons.mp hl
    by_cases hp : r.pointer = pointer
    · rw [List.map_cons, if_pos hp, List.filter_cons_of_neg (by simp [hw, hr hp]),
        List.filter_cons_of_neg (by simp [hr hp]), ih hrs]
    · rw [List.map_cons, if_neg hp, List.filter_cons, List.filter_cons, ih hrs]

/-- A grant changes the record it leads to, and no other. -/
theorem Sound.onlyNonce_update (h : Sound gm) (hk : known gm p.nonce = some m)
    {write : PortMapping → PortMapping} (hw : ∀ r, (write r).nonce = r.nonce) :
    OnlyNonce gm p.nonce (gm.update m.pointer write) := by
  obtain ⟨hm, hnonce⟩ := known_mem hk
  obtain ⟨i, f, hm⟩ := Gm.mem_records.mp hm
  refine ⟨fun j g => ?_, fun q hq => Or.inl hq⟩
  exact withoutNonce_map hw _ fun r hr hp => h.eq_of_pointer hr hm hp ▸ hnonce

/-- Unlinking the record changes no other. -/
theorem Sound.onlyNonce_tail (h : Sound gm) (hk : known gm p.nonce = some m) {f : Family}
    (hf : headsList gm m.pointer f = true) :
    OnlyNonce gm p.nonce (gm.setList .sta f (gm.portMappings .sta f).tail) := by
  obtain ⟨hm, hnonce⟩ := known_mem hk
  refine ⟨fun j g => ?_, fun q hq => Or.inl hq⟩
  rw [Gm.portMappings_setList]
  split_ifs with hjg
  · obtain ⟨rfl, rfl⟩ := hjg
    conv_rhs => rw [h.cons_of_headsList hm hf]
    exact (List.filter_cons_of_neg (by simp [hnonce])).symm
  · rfl

/-- A record that a nonce leads to is the first of its list with that nonce. -/
theorem Sound.find?_of_known (h : Sound gm) {nonce : Bytes 12} (hk : known gm nonce = some m)
    {f : Family} (hm : m ∈ gm.portMappings .sta f) :
    (gm.portMappings .sta f).find? (fun m => m.nonce = nonce) = some m := by
  obtain ⟨r, hr⟩ : ∃ r, (gm.portMappings .sta f).find? (fun m => m.nonce = nonce) = some r := by
    refine Option.ne_none_iff_exists'.mp fun hnone => ?_
    exact List.find?_eq_none.mp hnone m hm (by simpa using (known_mem hk).2)
  rw [hr]
  unfold known Gm.records netInterfaceIndices Gm.listsOf at hk
  rw [List.flatMap_cons, List.append_assoc, List.find?_append] at hk
  cases f with
  | ip4 => rwa [hr, Option.some_or] at hk
  | ip6 =>
    cases h4 : (gm.portMappings .sta .ip4).find? (fun m => m.nonce = nonce) with
    | none => rwa [h4, Option.none_or, List.find?_append, hr, Option.some_or] at hk
    | some s =>
      rw [h4, Option.some_or, Option.some.injEq] at hk
      have hs : s ∈ gm.portMappings .sta .ip4 := List.mem_of_find?_eq_some h4
      cases (h.apart _ _ _ _ s hs m hm (congrArg _ hk)).2

/-- **Freeing the record before the one removed changes another**: the one before it is met first,
so it has another nonce. -/
theorem Sound.not_onlyNonce_freed (h : Sound gm) (ha : Alive gm) (hk : known gm p.nonce = some m)
    {f : Family} {head second : PortMapping} {rest : List PortMapping}
    (hl : gm.portMappings .sta f = head :: second :: rest) (hs : second.pointer = m.pointer)
    (hfreed : t.freed = head.pointer :: gm.freed) : ¬ OnlyNonce gm p.nonce t := by
  intro honly
  have hhead : head ∈ gm.portMappings .sta f := by
    rw [hl]
    exact List.mem_cons_self
  have hsecond : second ∈ gm.portMappings .sta f := by
    rw [hl]
    exact List.mem_cons_of_mem _ List.mem_cons_self
  obtain ⟨i, g, hm⟩ := Gm.mem_records.mp (known_mem hk).1
  obtain rfl : second = m := h.eq_of_pointer hsecond hm hs
  have hne : head.pointer ≠ second.pointer := by
    have hnodup := h.nodup .sta f
    rw [hl, List.map_cons, List.map_cons, List.nodup_cons] at hnodup
    exact fun heq => hnodup.1 (heq ▸ List.mem_cons_self)
  have hnonce : head.nonce = p.nonce := by
    obtain hq | ⟨r, hr, hrp, hrn⟩ := honly.freed head.pointer (hfreed ▸ List.mem_cons_self)
    · exact absurd hq (ha.live .sta f head hhead)
    · obtain ⟨j, k, hr⟩ := Gm.mem_records.mp hr
      exact h.eq_of_pointer hr hhead hrp ▸ hrn
  have hfind := h.find?_of_known hk hsecond
  rw [hl, List.find?_cons_of_pos (by simpa using hnonce)] at hfind
  exact hne (congrArg PortMapping.pointer (Option.some.inj hfind))

/-- A success response changes what it may exactly when it grants a usable address. -/
theorem Sound.success_iff (h : Sound gm) (ha : Alive gm) (hk : known gm p.nonce = some m)
    (hcode : p.resultCode = pcpSuccess) (frame : Frame) (now : Timeval) :
    (∃ t, decodePcpMap esp gm p frame now = .ok t ∧ OnlyNonce gm p.nonce t) ↔
      esp.Usable p.externalAddress := by
  constructor
  · rintro ⟨t, ht, -⟩
    by_contra husable
    rw [h.decodePcpMap_unusable ha hk hcode husable frame now] at ht
    cases ht
  · intro husable
    obtain ⟨external, -, -, hgrant⟩ := ha.decodePcpMap_grant hk hcode husable frame now
    exact ⟨_, hgrant, h.onlyNonce_update hk fun _ => rfl⟩

/-- A failure response changes what it may exactly when its record can be removed. -/
theorem Sound.failure_iff (h : Sound gm) (ha : Alive gm) (hk : known gm p.nonce = some m)
    (hcode : p.resultCode ≠ pcpSuccess) (frame : Frame) (now : Timeval) :
    (∃ t, decodePcpMap esp gm p frame now = .ok t ∧ OnlyNonce gm p.nonce t) ↔
      RemovalSafe gm m := by
  rw [ha.decodePcpMap_failure hk hcode frame now]
  constructor
  · rintro ⟨t, ht, honly⟩
    by_contra hsafe
    obtain ⟨f, head, second, rest, hl, hs, hfreed⟩ := removePcpMapping_of_unsafe hsafe ht
    exact h.not_onlyNonce_freed ha hk hl hs hfreed honly
  · intro hsafe
    obtain ⟨ht, -⟩ | ⟨f, hf, ht⟩ := removePcpMapping_of_safe hsafe
    · exact ⟨gm, ht, fun _ _ => rfl, fun q hq => Or.inl hq⟩
    · exact ⟨_, ht, h.onlyNonce_tail hk hf⟩

end Response

/-! ## Steps and runs -/

section Step

variable {esp : EspNetif} {gm t : Gm} {p : PcpPacket} {messageSize : ℕ} {address : SockAddr}
  {frame : Frame} {now : Timeval}

theorem untouched_refl (gm : Gm) : Untouched gm gm := ⟨rfl, rfl⟩

/-- A datagram that is not a MAP response of the router changes nothing. -/
theorem step_of_not_response (he : gm.lastReceivedEpoch = 0)
    (hi : interfaceForSockaddr gm address ≠ none)
    (h : ¬ (Heeded gm address ∧ p.IsMapResponse messageSize)) :
    step esp gm (.packet p messageSize address frame now) = .ok gm := by
  change decodePacket esp gm p messageSize address frame now = .ok gm
  by_cases hh : Heeded gm address
  · rw [decodePacket_of_heeded hh]
    exact decodeOpcode_of_not_mapResponse he (fun hm => h ⟨hh, hm⟩) frame now
  · obtain ⟨i, hi⟩ := Option.ne_none_iff_exists'.mp hi
    unfold decodePacket
    rw [hi]
    dsimp only
    split_ifs with hrouter hport
    · rfl
    · rfl
    · exact absurd ⟨i, hi, by simpa using hrouter, of_not_not hport⟩ hh

/-- **A MAP response of the router is decoded well exactly when it is safe.** -/
theorem response_iff (h : Sound gm) (ha : Alive gm)
    (hstep : step esp gm (.packet p messageSize address frame now)
      = decodePcpMap esp gm p frame now)
    (haccepted : Accepted gm p messageSize address ↔ known gm p.nonce ≠ none) :
    DecodesWell esp gm (.packet p messageSize address frame now) ↔
      ∀ m, known gm p.nonce = some m →
        if p.resultCode = pcpSuccess then esp.Usable p.externalAddress else RemovalSafe gm m := by
  unfold DecodesWell
  dsimp only
  rw [hstep, haccepted]
  cases hk : known gm p.nonce with
  | none =>
    refine iff_of_true ⟨gm, ha.decodePcpMap_unknown hk frame now, ?_, fun _ => untouched_refl gm⟩ ?_
    · exact fun hne => absurd rfl hne
    · exact fun m hm => by cases hm
  | some m =>
    have hwell : (∃ t, decodePcpMap esp gm p frame now = .ok t ∧
        (some m ≠ none → OnlyNonce gm p.nonce t) ∧ (¬ some m ≠ none → Untouched gm t)) ↔
        ∃ t, decodePcpMap esp gm p frame now = .ok t ∧ OnlyNonce gm p.nonce t := by simp
    simp only [Option.some.injEq, forall_eq']
    by_cases hcode : p.resultCode = pcpSuccess
    · rw [hwell, if_pos hcode]
      exact h.success_iff ha hk hcode frame now
    · rw [hwell, if_neg hcode]
      exact h.failure_iff ha hk hcode frame now

/-- A datagram for which no interface can be selected stops the client. -/
theorem not_decodesWell_of_none (hi : interfaceForSockaddr gm address = none) :
    ¬ DecodesWell esp gm (.packet p messageSize address frame now) := by
  rintro ⟨t, ht, -⟩
  change decodePacket esp gm p messageSize address frame now = .ok t at ht
  unfold decodePacket at ht
  rw [hi] at ht
  cases ht

/-- **A datagram is decoded well exactly when it is safe.** -/
theorem decodesWell_iff (h : Sound gm) (ha : Alive gm) (e : Event) :
    DecodesWell esp gm e ↔ DecodesSafely esp gm e := by
  cases e with
  | packet p messageSize address frame now =>
    by_cases hi : interfaceForSockaddr gm address = none
    · exact iff_of_false (not_decodesWell_of_none hi) fun hsafe => hsafe.1 hi
    · by_cases hr : Heeded gm address ∧ p.IsMapResponse messageSize
      · obtain ⟨hh, hm⟩ := hr
        have hstep : step esp gm (.packet p messageSize address frame now)
            = decodePcpMap esp gm p frame now :=
          (decodePacket_of_heeded hh p messageSize frame now).trans
            (decodeOpcode_of_mapResponse hm frame now)
        have haccepted : Accepted gm p messageSize address ↔ known gm p.nonce ≠ none := by
          rw [Ne, known_eq_none, not_forall]
          simp only [Accepted, hh, hm, true_and, not_forall, not_not, exists_prop]
        rw [response_iff h ha hstep haccepted]
        exact ⟨fun hsafe => ⟨hi, fun _ _ => hsafe⟩, fun hsafe => hsafe.2 hh hm⟩
      · have hstep : step esp gm (.packet p messageSize address frame now) = .ok gm :=
          step_of_not_response h.epoch hi hr
        refine iff_of_true ⟨gm, hstep, ?_, fun _ => untouched_refl gm⟩ ⟨hi, fun hh hm => ?_⟩
        · exact fun hacc => absurd ⟨hacc.1, hacc.2.1⟩ hr
        · exact absurd ⟨hh, hm⟩ hr
  | _ => exact Iff.rfl

/-- A failure response of the router leads to a record that can be removed. -/
def RemovesSafely (gm : Gm) (e : Event) : Prop :=
  match e with
  | .packet p messageSize address _ _ => Heeded gm address → p.IsMapResponse messageSize →
      p.resultCode ≠ pcpSuccess → ∀ m, known gm p.nonce = some m → RemovalSafe gm m
  | _ => True

theorem removesSafely_of_decodesSafely {e : Event} (h : DecodesSafely esp gm e) :
    RemovesSafely gm e := by
  cases e with
  | packet p messageSize address frame now =>
    intro hh hm hcode m hk
    have hsafe := h.2 hh hm m hk
    rwa [if_neg hcode] at hsafe
  | _ => trivial

/-- A datagram that removes safely frees no record. -/
theorem Alive.decodePacket (h : Sound gm) (ha : Alive gm)
    (hsafe : RemovesSafely gm (.packet p messageSize address frame now))
    (ht : decodePacket esp gm p messageSize address frame now = .ok t) : Alive t := by
  obtain rfl | ⟨hh, hm, ht⟩ := decodePacket_ok h.epoch ht
  · exact ha
  · cases hk : known gm p.nonce with
    | none =>
      obtain rfl := Except.ok.inj ((ha.decodePcpMap_unknown hk frame now).symm.trans ht)
      exact ha
    | some m =>
      by_cases hcode : p.resultCode = pcpSuccess
      · by_cases husable : esp.Usable p.externalAddress
        · obtain ⟨external, -, -, hgrant⟩ := ha.decodePcpMap_grant hk hcode husable frame now
          obtain rfl := Except.ok.inj (hgrant.symm.trans ht)
          refine ha.of_subset rfl rfl fun i f r hr => ?_
          obtain ⟨r', hr', rfl⟩ := List.mem_map.mp hr
          refine ⟨r', hr', ?_⟩
          split_ifs <;> rfl
        · rw [h.decodePcpMap_unusable ha hk hcode husable frame now] at ht
          cases ht
      · rw [ha.decodePcpMap_failure hk hcode frame now] at ht
        obtain ⟨hu, -⟩ | ⟨f, -, hu⟩ := removePcpMapping_of_safe (hsafe hh hm hcode m hk)
        · obtain rfl := Except.ok.inj (hu.symm.trans ht)
          exact ha
        · obtain rfl := Except.ok.inj (hu.symm.trans ht)
          exact ha.setList fun r hr => ⟨r, List.mem_of_mem_tail hr, rfl⟩

/-- Saving a record frees none. -/
theorem Alive.savePcpMapping (h : Sound gm) (ha : Alive gm) {i : GmInterfaceIndex}
    {mallocOk : Bool} (ht : savePcpMapping gm p i frame now mallocOk = .ok t) : Alive t := by
  obtain ⟨_, _, m, f, -, -, -, rfl, ⟨rfl, -⟩ | ⟨before, r, after, hl, -, rfl⟩⟩ :=
    savePcpMapping_ok h.epoch ht
  · exact ha.add i f rfl
  · refine ha.setList fun m hm => ?_
    rw [hl]
    obtain hm | hm := List.mem_append.mp hm
    · exact ⟨m, List.mem_append_left _ hm, rfl⟩
    · rw [List.mem_singleton.mp hm]
      exact ⟨r, List.mem_append_right _ List.mem_cons_self, rfl⟩

/-- **A step that removes safely frees no record of a list.** -/
theorem Alive.next (h : Sound gm) (ha : Alive gm) {e : Event} (hsafe : RemovesSafely gm e)
    (ht : next esp gm e = some t) : Alive t := by
  rw [next_eq_some] at ht
  cases e with
  | save k frame now mallocOk =>
    cases hr : gm.pending[k]? with
    | none =>
      rw [step_save_none hr] at ht
      exact Except.ok.inj ht ▸ ha
    | some r =>
      rw [step_save_some hr] at ht
      have hs : Sound { gm with pending := gm.pending.eraseIdx k } := h.congr rfl rfl rfl
      have hu : Alive { gm with pending := gm.pending.eraseIdx k } := ha.congr rfl rfl rfl
      exact hu.savePcpMapping hs ht
  | packet p messageSize address frame now => exact ha.decodePacket h hsafe ht
  | tick clock => exact h.maintainMappings_ok ht ▸ ha
  | stop =>
    unfold step gmPcpStop at ht
    split_ifs at ht
    obtain rfl := Except.ok.inj ht
    refine ⟨fun _ _ m hm => absurd hm List.not_mem_nil, fun q hq => ?_⟩
    obtain hq | hq := List.mem_append.mp hq
    · obtain ⟨m, hm, rfl⟩ := List.mem_map.mp hq
      obtain ⟨i, f, hm⟩ := Gm.mem_records.mp hm
      exact h.bound i f m hm
    · exact ha.bound q hq
  | _ =>
    have hsame : SameRecords gm t := sameRecords_of_quiet rfl ht
    exact ha.congr hsame.lists hsame.freed hsame.nextPointer

end Step

/-- **The datagrams of a run are decoded well exactly when they are safe.** -/
theorem decodesWell_iff_decodesSafely (esp : EspNetif) (events : List Event) :
    (∀ v ∈ visits (next esp) {} events, DecodesWell esp v.1 v.2) ↔
      ∀ v ∈ visits (next esp) {} events, DecodesSafely esp v.1 v.2 :=
  forall_visits_iff (I := fun gm => Sound gm ∧ Alive gm) (fun _ e h => decodesWell_iff h.1 h.2 e)
    (fun _ _ _ h hsafe ht =>
      ⟨h.1.next ht, h.2.next h.1 (removesSafely_of_decodesSafely hsafe) ht⟩) events {}
    ⟨sound_init, alive_init⟩

/-- A station at 10.0.0.5, behind a router at 10.0.0.1. -/
def office : GmNetif where
  ip4 := { address := ![10, 0, 0, 5], router := ![10, 0, 0, 1] }

/-- The station there, its socket open. -/
def atOffice : Gm where
  netInterfaces := Function.update (fun _ => {}) .sta office
  ipv4Socket := 3

/-- A datagram from 192.168.1.9, which has no leading bit in common with any address. -/
def strayDatagram : Event :=
  .packet {} 1 (.inet ![192, 168, 1, 9] (swap16 pcpServerPort)) .aligned {}

/-- **A datagram from nowhere near stops the client.** -/
theorem not_decodesWell_stray :
    ¬ ∀ v ∈ visits (next lwipNetif) {} [.addresses .sta office, .startIpv4 3, strayDatagram],
      DecodesWell lwipNetif v.1 v.2 := by
  intro h
  have hvisit : (atOffice, strayDatagram) ∈
      visits (next lwipNetif) {} [.addresses .sta office, .startIpv4 3, strayDatagram] :=
    List.mem_cons_of_mem _ (List.mem_cons_of_mem _ List.mem_cons_self)
  exact not_decodesWell_of_none (by decide +kernel) (h _ hvisit)

end Pcp
