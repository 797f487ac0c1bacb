import HtFirmware.Radio.Cache

/-!
# Radio/Writes — which commands a set writes

A module keeps its settings in FLASH, which wears out, so `radio_set` is to write what differs from
the cached settings and nothing else.  For the filter and the tail it does.  The group command covers
six floats besides the digital codes, and `floatEqual` tells no two floats apart: a set that changes
only the frequency writes nothing (`writesDifferences_iff`).
-/

namespace Radio

variable {c c' : RadioModule} {p o : RadioChannelData} {channel : ℕ} {a : SetAnswers}

/-! ## Differences -/

/-- A float that the group command covers differs, by `FLT_EPSILON` or more. -/
def FloatsDiffer (p o : RadioChannelData) : Prop :=
  fltEpsilon ≤ |p.bandwidth - o.bandwidth|
    ∨ fltEpsilon ≤ |p.transmitFrequency - o.transmitFrequency|
    ∨ fltEpsilon ≤ |p.receiveFrequency - o.receiveFrequency|
    ∨ fltEpsilon ≤ |p.transmitSubaudibleTone - o.transmitSubaudibleTone|
    ∨ fltEpsilon ≤ |p.receiveSubaudibleTone - o.receiveSubaudibleTone|
    ∨ fltEpsilon ≤ |p.squelchLevel - o.squelchLevel|

/-- A digital code differs. -/
def CodesDiffer (p o : RadioChannelData) : Prop :=
  p.transmitDigitalCode ≠ o.transmitDigitalCode ∨ p.receiveDigitalCode ≠ o.receiveDigitalCode

/-- **What a set of `p` over the cached `o` is to write**: each of the three commands exactly when
something that it covers differs, and nothing when nothing does. -/
structure WritesDifferences (p o : RadioChannelData) (sent : List Exchange) : Prop where
  group : (∃ e ∈ sent, ∃ g, e.command = .setGroup g) ↔ CodesDiffer p o ∨ FloatsDiffer p o
  filter : (∃ e ∈ sent, ∃ f, e.command = .setFilter f) ↔
    p.lowPassFilter ≠ o.lowPassFilter ∨ p.highPassFilter ≠ o.highPassFilter
      ∨ p.preemphasisDeemphasis ≠ o.preemphasisDeemphasis
  tail : (∃ e ∈ sent, ∃ noTail, e.command = .setTail noTail) ↔ p.tailTone ≠ o.tailTone
  nothing : p = o → sent = []

theorem groupDue_iff : groupDue p o = true ↔ CodesDiffer p o := by
  rw [groupDue_eq, Bool.or_eq_true, bne_iff_ne, bne_iff_ne, CodesDiffer]

theorem filterDue_iff : filterDue p o = true ↔
    p.lowPassFilter ≠ o.lowPassFilter ∨ p.highPassFilter ≠ o.highPassFilter
      ∨ p.preemphasisDeemphasis ≠ o.preemphasisDeemphasis := by
  rw [filterDue, Bool.or_eq_true, Bool.or_eq_true, bne_iff_ne, bne_iff_ne, bne_iff_ne, or_assoc]

theorem tailDue_iff : tailDue p o = true ↔ p.tailTone ≠ o.tailTone := bne_iff_ne

/-- Parameters do not differ from themselves. -/
theorem not_floatsDiffer (p : RadioChannelData) : ¬ FloatsDiffer p p := by
  have hzero : ∀ x : ℚ, ¬ fltEpsilon ≤ |x - x| := by
    intro x
    rw [sub_self, abs_zero]
    exact not_le.mpr fltEpsilon_pos
  rintro (h | h | h | h | h | h) <;> exact hzero _ h

/-! ## What is sent -/

/-- The command, where it is due. -/
def sentIf (due : Bool) (command : Command) : List Command := if due then [command] else []

theorem mem_sentIf {due : Bool} {command x : Command} :
    x ∈ sentIf due command ↔ due = true ∧ x = command := by
  rw [sentIf]
  split_ifs with hdue <;> simp [hdue]

/-- The commands of a set, in the order in which they are sent. -/
def sentCommands (p o : RadioChannelData) : List Command :=
  sentIf (groupDue p o) (.setGroup (groupArgs p)) ++ sentIf (filterDue p o) (.setFilter (filterArgs p))
    ++ sentIf (tailDue p o) (.setTail (!p.tailTone))

/-- **A command that succeeds is on the line**, if it is due. -/
theorem line_sendIf {due : Bool} {command : Command} {answer : Answer}
    (h : sendIf due c command answer = (true, c')) :
    ∃ sent, c'.device.platform.line = c.device.platform.line ++ sent ∧
      sent.map Exchange.command = sentIf due command := by
  cases due with
  | false =>
    obtain rfl : c = c' := congrArg Prod.snd h
    exact ⟨[], (List.append_nil _).symm, rfl⟩
  | true =>
    rw [sendIf, if_pos rfl, sa818Command] at h
    by_cases hbuffer : c.device.buffer = true
    · rw [if_pos hbuffer] at h
      cases hreply : reply c.device.bufferSize command answer with
      | error message =>
        rw [hreply] at h
        cases congrArg Prod.fst h
      | ok result =>
        rw [hreply] at h
        dsimp only at h
        obtain ⟨-, rfl⟩ := Prod.mk.inj h
        exact ⟨_, rfl, rfl⟩
    · rw [if_neg hbuffer] at h
      cases congrArg Prod.fst h

/-- **The specification of a set that succeeds**: its commands, where they are due. -/
theorem line_sa818Set (hcached : c.device.channels.bind (·[channel]?) = some o)
    (hset : sa818Set c p channel a = some (true, c')) :
    ∃ sent, c'.device.platform.line = c.device.platform.line ++ sent ∧
      sent.map Exchange.command = sentCommands p o := by
  rw [sa818Set, hcached] at hset
  have hrun : setCommands c p o channel a = (true, c') := Option.some.inj hset
  unfold setCommands at hrun
  rcases hg : sendIf (groupDue p o) c (.setGroup (groupArgs p)) a.group with ⟨_ | _, c₁⟩
  · rw [hg] at hrun
    dsimp only at hrun
    cases (Prod.mk.inj hrun).1
  rw [hg] at hrun
  dsimp only at hrun
  rcases hf : sendIf (filterDue p o) c₁ (.setFilter (filterArgs p)) a.filter with ⟨_ | _, c₂⟩
  · rw [hf] at hrun
    dsimp only at hrun
    cases (Prod.mk.inj hrun).1
  rw [hf] at hrun
  dsimp only at hrun
  rcases ht : sendIf (tailDue p o) c₂ (.setTail (!p.tailTone)) a.tail with ⟨_ | _, c₃⟩
  · rw [ht] at hrun
    dsimp only at hrun
    cases (Prod.mk.inj hrun).1
  rw [ht] at hrun
  dsimp only at hrun
  obtain ⟨-, rfl⟩ := Prod.mk.inj hrun
  obtain ⟨group, hline₁, hgroup⟩ := line_sendIf hg
  obtain ⟨filter, hline₂, hfilter⟩ := line_sendIf hf
  obtain ⟨tail, hline₃, htail⟩ := line_sendIf ht
  refine ⟨group ++ filter ++ tail, ?_, ?_⟩
  · change c₃.device.platform.line = _
    rw [hline₃, hline₂, hline₁, List.append_assoc, List.append_assoc, List.append_assoc]
  · rw [List.map_append, List.map_append, hgroup, hfilter, htail]
    rfl

/-- A command is sent. -/
theorem exists_command {sent : List Exchange} (hsent : sent.map Exchange.command = sentCommands p o)
    {P : Command → Prop} : (∃ e ∈ sent, P e.command) ↔
      groupDue p o = true ∧ P (.setGroup (groupArgs p)) ∨
      filterDue p o = true ∧ P (.setFilter (filterArgs p)) ∨
      tailDue p o = true ∧ P (.setTail (!p.tailTone)) := by
  have hcommands : (∃ e ∈ sent, P e.command) ↔ ∃ x ∈ sent.map Exchange.command, P x := by
    simp only [List.mem_map, exists_exists_and_eq_and]
  rw [hcommands, hsent, sentCommands]
  simp only [List.mem_append, mem_sentIf, or_and_right, exists_or, and_assoc, exists_and_left,
    exists_eq_left, or_assoc]

/-- What is sent is what differs, once the group command is sent when it should be. -/
theorem writesDifferences_sent {sent : List Exchange}
    (hsent : sent.map Exchange.command = sentCommands p o) :
    WritesDifferences p o sent ↔ CodesDiffer p o ∨ ¬ FloatsDiffer p o := by
  have hgroup : (∃ e ∈ sent, ∃ g, e.command = .setGroup g) ↔ CodesDiffer p o := by
    rw [exists_command hsent (P := fun x => ∃ g, x = .setGroup g), groupDue_iff]
    simp
  constructor
  · intro hwrites
    by_cases hfloats : FloatsDiffer p o
    · exact Or.inl (hgroup.mp (hwrites.group.mpr (Or.inr hfloats)))
    · exact Or.inr hfloats
  · intro hcodes
    refine ⟨hgroup.trans ?_, ?_, ?_, ?_⟩
    · constructor
      · exact Or.inl
      · rintro (h | h)
        · exact h
        · exact hcodes.resolve_right (not_not.mpr h)
    · rw [exists_command hsent (P := fun x => ∃ f, x = .setFilter f), filterDue_iff]
      simp
    · rw [exists_command hsent (P := fun x => ∃ noTail, x = .setTail noTail), tailDue_iff]
      simp
    · rintro rfl
      have hnone : sentCommands p p = [] := by simp [sentCommands, sentIf, groupDue, filterDue, tailDue]
      rw [hnone] at hsent
      exact List.map_eq_nil_iff.mp hsent

/-- **A set that succeeds writes what differs exactly when a digital code does, or no float.** -/
theorem writesDifferences_iff (hcached : c.device.channels.bind (·[channel]?) = some o)
    (hset : sa818Set c p channel a = some (true, c')) :
    (∃ sent, c'.device.platform.line = c.device.platform.line ++ sent ∧ WritesDifferences p o sent) ↔
      CodesDiffer p o ∨ ¬ FloatsDiffer p o := by
  obtain ⟨sent, hline, hsent⟩ := line_sa818Set hcached hset
  rw [← writesDifferences_sent hsent]
  constructor
  · rintro ⟨written, hwritten, hdifferences⟩
    rw [hline] at hwritten
    rwa [List.append_cancel_left hwritten]
  · exact fun hdifferences => ⟨sent, hline, hdifferences⟩

/-- The tail is switched off. -/
def quiet : RadioChannelData := { simplex with tailTone := false }

/-- The module acknowledges the commands of a set. -/
def acknowledged : SetAnswers :=
  ⟨⟨45, some "+DMOSETGROUP:0\r\n".toList⟩, ⟨23, some "+DMOSETFILTER:0\r\n".toList⟩,
    ⟨17, some "+DMOSETTAIL:0\r\n".toList⟩⟩

theorem sa818Set_quiet : sa818Set onSimplex quiet 0 acknowledged
    = some (true, (onSimplex.exchange (.setTail true) acknowledged.tail).store 0 quiet) := by
  decide +kernel

theorem writesDifferences_quiet :
    ∃ sent, ((onSimplex.exchange (.setTail true) acknowledged.tail).store 0 quiet).device.platform.line
        = onSimplex.device.platform.line ++ sent ∧ WritesDifferences quiet simplex sent :=
  (writesDifferences_iff rfl sa818Set_quiet).mpr (Or.inr (not_floatsDiffer simplex))

/-- **A set to another frequency succeeds, and writes nothing.** -/
theorem not_writesDifferences_retune :
    sa818Set onSimplex retune.params 0 retune.answers = some (true, onSimplex.store 0 retune.params) ∧
      (onSimplex.store 0 retune.params).device.platform.line = onSimplex.device.platform.line ∧
      ¬ WritesDifferences retune.params simplex [] := by
  refine ⟨sa818Set_retune, rfl, fun hwrites => ?_⟩
  have hfrequency : fltEpsilon ≤ |retune.params.transmitFrequency - simplex.transmitFrequency| := by
    norm_num [retune, simplex, fltEpsilon]
  obtain ⟨e, he, -⟩ := hwrites.group.mpr (Or.inr (Or.inr (Or.inl hfrequency)))
  cases he

end Radio
