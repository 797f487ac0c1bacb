import HtFirmware.Machinery.Fallible
import HtFirmware.Web.Template

/-!
# Web/Steps — what the template's calls come down to

Each call of the template prints some pieces, one after the other, may complain, and ends the response
when it closes the outermost element; which it does is decided by the open tags alone.  `steps` lists
them, and `write_eq` says that they are what the calls do.
-/

open Machinery

namespace Web

/-- What the template does to its buffer: a call of `emit_va`, a call of `fail`, and the flush and the
call of `gm_web_finish` at the end. -/
inductive Step where
  | emit (pattern : CString) (args : List CString)
  | fail (message : CString)
  | finish

/-- The message of `html_attr`. -/
def attrMessage : CString :=
  ("attr() must be under the tag it applies to, before anything but " ++ "another param().\n").toList

/-- The message of `html_end`. -/
def endMessage : CString := "end() called too many times (check for non-nesting tags).\n".toList

/-- The steps of `finish_current_tag`. -/
def finishSteps : List Tag → List Step
  | [] => []
  | tag :: _ => if tag.isOpen then [.emit ">".toList []] else []

/-- The steps of `html_end`, once the current tag is finished. -/
def endSteps : List Tag → List Step
  | [] => [.fail endMessage]
  | tag :: parents =>
    if tag.nesting then .emit "</%s>".toList [tag.name] :: if parents.isEmpty then [.finish] else []
    else [.fail endMessage]

/-- The steps of a call, given the open tags. -/
def Markup.steps (tags : List Tag) : Markup → List Step
  | .tag name _ => finishSteps tags ++ [.emit "<%s".toList [name]]
  | .attr name pattern args =>
    (if tags.head?.any Tag.isOpen then [] else [.fail attrMessage]) ++
      [.emit " %s=\"".toList [name], .emit pattern args, .emit "\"".toList []]
  | .text pattern args => finishSteps tags ++ [.emit pattern args]
  | .close => finishSteps tags ++ endSteps (finishTags tags)

/-- The steps of some calls, one after the other. -/
def steps : List Tag → List Markup → List Step
  | _, [] => []
  | tags, m :: ms => m.steps tags ++ steps (m.tags tags) ms

theorem steps_append : ∀ (ms more : List Markup) (tags : List Tag),
    steps tags (ms ++ more) = steps tags ms ++ steps (ms.foldl Markup.tags tags) more := by
  intro ms more
  induction ms with
  | nil => exact fun tags => rfl
  | cons m ms ih =>
    intro tags
    rw [List.cons_append, steps, steps, ih, List.foldl_cons, List.append_assoc]

/-! ## The calls are their steps -/

namespace Page

/-- A step. -/
def step (p : Page) : Step → Except Fault Page
  | .emit pattern args => p.emit pattern args
  | .fail message => .ok (p.fail message)
  | .finish => .ok { p.flush with finished := true }

/-- Some steps, one after the other. -/
def stepAll (p : Page) (ss : List Step) : Except Fault Page := ss.foldlM step p

/-- A page with other tags. -/
def withTags (tags : List Tag) (p : Page) : Page := { p with current := tags }

theorem stepAll_append (p : Page) (ss more : List Step) :
    p.stepAll (ss ++ more) = (p.stepAll ss).bind (·.stepAll more) := List.foldlM_append

theorem stepAll_cons (p : Page) (s : Step) (ss : List Step) :
    p.stepAll (s :: ss) = (p.step s).bind (·.stepAll ss) := rfl

/-- Printing does not look at the tags. -/
theorem emit_withTags (p : Page) (tags : List Tag) (pattern : CString) (args : List CString) :
    (p.withTags tags).emit pattern args = (p.emit pattern args).map (withTags tags) := by
  unfold emit
  cases format pattern args with
  | none => rfl
  | some output =>
    dsimp only [withTags]
    split_ifs <;> rfl

theorem step_withTags (p : Page) (tags : List Tag) (s : Step) :
    (p.withTags tags).step s = (p.step s).map (withTags tags) := by
  cases s with
  | emit pattern args => exact emit_withTags p tags pattern args
  | fail message => rfl
  | finish => rfl

theorem stepAll_withTags (tags : List Tag) : ∀ (ss : List Step) (p : Page),
    (p.withTags tags).stepAll ss = (p.stepAll ss).map (withTags tags) := by
  intro ss
  induction ss with
  | nil => exact fun p => rfl
  | cons s ss ih =>
    intro p
    rw [stepAll_cons, stepAll_cons, step_withTags]
    cases p.step s with
    | error fault => rfl
    | ok q => exact ih q

theorem current_step {p q : Page} {s : Step} (h : p.step s = .ok q) : q.current = p.current := by
  rw [← (show p.withTags p.current = p from rfl), step_withTags] at h
  obtain ⟨q', -, rfl⟩ := map_ok h
  rfl

theorem current_stepAll : ∀ {ss : List Step} {p q : Page}, p.stepAll ss = .ok q →
    q.current = p.current := by
  intro ss
  induction ss with
  | nil => exact fun h => Except.ok.inj h ▸ rfl
  | cons s ss ih =>
    intro p q h
    obtain ⟨q', hstep, hrest⟩ := bind_ok h
    exact (ih hrest).trans (current_step hstep)

theorem finishCurrentTag_eq (p : Page) : p.finishCurrentTag
    = (p.stepAll (finishSteps p.current)).map (withTags (finishTags p.current)) := by
  unfold finishCurrentTag
  cases hp : p.current with
  | nil =>
    have hsame : p.withTags [] = p := by rw [← hp]; rfl
    exact congrArg _ hsame.symm
  | cons tag parents =>
    dsimp only [finishSteps, finishTags]
    by_cases hopen : tag.isOpen
    · simp only [if_pos hopen, stepAll_cons, step]
      cases p.emit ">".toList [] with
      | error fault => rfl
      | ok q =>
        by_cases hnesting : tag.nesting
        · simp only [if_pos hnesting]
          rfl
        · simp only [if_neg hnesting]
          rfl
    · have hsame : p.withTags (tag :: parents) = p := by rw [← hp]; rfl
      simp only [if_neg hopen]
      exact congrArg _ hsame.symm

/-! ### Calls -/

variable (p : Page)

theorem htmlTag_eq (name : CString) (nesting : Bool) : p.htmlTag name nesting
    = (p.stepAll (finishSteps p.current ++ [.emit "<%s".toList [name]])).map
      (withTags (Markup.tags p.current (.tag name nesting))) := by
  simp only [htmlTag, finishCurrentTag_eq, stepAll_append]
  cases p.stepAll (finishSteps p.current) with
  | error fault => rfl
  | ok q =>
    simp only [Except.map, bind, Except.bind, emit_withTags, stepAll_cons, step]
    cases q.emit "<%s".toList [name] with
    | error fault => rfl
    | ok r => rfl

theorem htmlText_eq (pattern : CString) (args : List CString) : p.htmlText pattern args
    = (p.stepAll (finishSteps p.current ++ [.emit pattern args])).map
      (withTags (finishTags p.current)) := by
  simp only [htmlText, finishCurrentTag_eq, stepAll_append]
  cases p.stepAll (finishSteps p.current) with
  | error fault => rfl
  | ok q =>
    simp only [Except.map, bind, Except.bind, emit_withTags, stepAll_cons, step]
    cases q.emit pattern args with
    | error fault => rfl
    | ok r => rfl

/-- Steps leave the tags as they are. -/
theorem stepAll_eq_map (ss : List Step) : p.stepAll ss = (p.stepAll ss).map (withTags p.current) := by
  cases h : p.stepAll ss with
  | error fault => rfl
  | ok q => exact congrArg _ (show q = q.withTags p.current by rw [← current_stepAll h]; rfl)

theorem htmlAttr_eq (name pattern : CString) (args : List CString) : p.htmlAttr name pattern args
    = p.stepAll (Markup.steps p.current (.attr name pattern args)) := by
  have hpieces : ∀ q : Page, (do
      let q ← q.emit " %s=\"".toList [name]
      let q ← q.emit pattern args
      q.emit "\"".toList []) = q.stepAll
        [.emit " %s=\"".toList [name], .emit pattern args, .emit "\"".toList []] := by
    intro q
    simp only [stepAll_cons, step, bind]
    congr 1
    funext q'
    congr 1
    funext q''
    exact (bind_pure _).symm
  dsimp only [htmlAttr, Markup.steps]
  rw [hpieces, stepAll_append]
  split_ifs <;> rfl

theorem htmlEnd_eq : p.htmlEnd
    = (p.stepAll (finishSteps p.current ++ endSteps (finishTags p.current))).map
      (withTags (endTags (finishTags p.current))) := by
  simp only [htmlEnd, finishCurrentTag_eq, stepAll_append]
  cases p.stepAll (finishSteps p.current) with
  | error fault => rfl
  | ok q =>
    have hcurrent : (q.withTags (finishTags p.current)).current = finishTags p.current := rfl
    simp only [Except.map, bind, Except.bind, hcurrent]
    cases finishTags p.current with
    | nil => rfl
    | cons tag parents =>
      by_cases hnesting : tag.nesting
      · simp only [if_pos hnesting, endSteps, endTags, emit_withTags, stepAll_cons, step]
        cases q.emit "</%s>".toList [tag.name] with
        | error fault => rfl
        | ok r => cases parents <;> rfl
      · simp only [if_neg hnesting, endSteps, endTags]
        rfl

/-- **A call is its steps**, and leaves the tags it should. -/
theorem write_eq (m : Markup) :
    p.write m = (p.stepAll (m.steps p.current)).map (withTags (m.tags p.current)) := by
  cases m with
  | tag name nesting => exact p.htmlTag_eq name nesting
  | attr name pattern args => exact (p.htmlAttr_eq name pattern args).trans (p.stepAll_eq_map _)
  | text pattern args => exact p.htmlText_eq pattern args
  | close => exact p.htmlEnd_eq

/-- **So are some calls.** -/
theorem writeAll_eq : ∀ (ms : List Markup) (p : Page), p.writeAll ms
    = (p.stepAll (steps p.current ms)).map (withTags (ms.foldl Markup.tags p.current)) := by
  intro ms
  induction ms with
  | nil => exact fun p => rfl
  | cons m ms ih =>
    intro p
    rw [writeAll, List.foldlM_cons, write_eq, steps, stepAll_append, List.foldl_cons]
    cases p.stepAll (m.steps p.current) with
    | error fault => rfl
    | ok q =>
      refine (ih (q.withTags (m.tags p.current))).trans ?_
      rw [show (q.withTags (m.tags p.current)).current = m.tags p.current from rfl, stepAll_withTags]
      dsimp only [Except.bind]
      cases q.stepAll (steps (m.tags p.current) ms) with
      | error fault => rfl
      | ok r => rfl

end Page

end Web
