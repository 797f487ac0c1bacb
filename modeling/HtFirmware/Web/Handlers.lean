import HtFirmware.Machinery.TailQueue
import HtFirmware.Machinery.Text

/-!
# Web/Handlers — the handlers that are registered for a path

Each page has a handler in static memory, which a constructor registers before `main` runs; the order of
the constructors is the linker's.  For each method there is a queue of handlers (`Machinery/TailQueue`),
and a request runs the first one of its method's that has its path for a name.

When no two handlers of a method have one name the order does not matter (`runs_registered`).
-/

open Machinery
open scoped List

namespace Web

/-- `gm_web_method`. -/
inductive GmWebMethod where
  | get
  | put
  | post
  deriving DecidableEq

/-- `gm_web_handler_t`, but for `next`. -/
structure GmWebHandler (F : Type) where
  name : CString
  handler : F

variable {ι F : Type}

/-- The path that names are compared with: the request's, less a slash. -/
def handlerPath (uri : CString) : CString := if uri.head? = some '/' then uri.tail else uri

/-- No two handlers of a method have one name. -/
def Unambiguous (record : ι → GmWebHandler F) (entries : List (GmWebMethod × ι)) : Prop :=
  ∀ e ∈ entries, ∀ e' ∈ entries, e.1 = e'.1 → (record e.2).name = (record e'.2).name → e = e'

theorem Unambiguous.perm {record : ι → GmWebHandler F} {entries entries' : List (GmWebMethod × ι)}
    (h : Unambiguous record entries) (hperm : entries' ~ entries) :
    Unambiguous record entries' :=
  fun e he e' he' => h e (hperm.mem_iff.mp he) e' (hperm.mem_iff.mp he')

section Register

variable [DecidableEq ι]

/-- `gm_web_handler_register`, for the handler at an address. -/
def gmWebHandlerRegister (q : TailQueues GmWebMethod ι) (handler : ι) (method : GmWebMethod) :
    TailQueues GmWebMethod ι :=
  q.append method handler

/-- `gm_web_handler_run`: the function that is called, if any; without one the result is 1.  The fuel runs
out where the queue has no end. -/
def gmWebHandlerRun (record : ι → GmWebHandler F) (q : TailQueues GmWebMethod ι) (fuel : ℕ)
    (uri : CString) (method : GmWebMethod) : Option (Option F) :=
  (q.find (fun h => (record h).name = handlerPath uri) fuel (.first method)).map
    (Option.map fun h => (record h).handler)

/-- Handlers are registered, one after the other. -/
def registerAll (entries : List (GmWebMethod × ι)) : TailQueues GmWebMethod ι :=
  entries.foldl (fun q e => gmWebHandlerRegister q e.2 e.1) {}

section

variable {record : ι → GmWebHandler F} {entries : List (GmWebMethod × ι)} {fuel : ℕ}

/-- **The first handler** of the method's that has the name is run. -/
theorem gmWebHandlerRun_first (hnodup : (entries.map Prod.snd).Nodup) (hfuel : entries.length < fuel)
    (uri : CString) (method : GmWebMethod) :
    gmWebHandlerRun record (registerAll entries) fuel uri method
      = some (((TailQueues.queue entries method).find? fun h => (record h).name = handlerPath uri).map
        fun h => (record h).handler) := by
  have hholds := TailQueues.holds_appendAll hnodup
  have hlength : (TailQueues.queue entries method).length ≤ entries.length := by
    rw [TailQueues.queue, List.length_map]
    exact List.length_filter_le _ _
  have hfind := TailQueues.find_of_leads (fun h => decide ((record h).name = handlerPath uri))
    (hholds.leads method) (hholds.ends method) (Nat.lt_of_le_of_lt hlength hfuel)
  exact congrArg (Option.map _) hfind

/-- **The only handler** of the method's that has the name is run. -/
theorem gmWebHandlerRun_only (hnodup : (entries.map Prod.snd).Nodup) (hfuel : entries.length < fuel)
    (hnames : Unambiguous record entries) {method : GmWebMethod} {h : ι} (hmem : (method, h) ∈ entries)
    {uri : CString} (hname : (record h).name = handlerPath uri) :
    gmWebHandlerRun record (registerAll entries) fuel uri method = some (some (record h).handler) := by
  rw [gmWebHandlerRun_first hnodup hfuel]
  cases hfound : (TailQueues.queue entries method).find? fun h => (record h).name = handlerPath uri with
  | none =>
    have hnot := List.find?_eq_none.mp hfound h (TailQueues.mem_queue.mpr hmem)
    exact absurd hname (by simpa using hnot)
  | some h' =>
    have hname' : (record h').name = handlerPath uri := by simpa using List.find?_some hfound
    have hmem' := TailQueues.mem_queue.mp (List.mem_of_find?_eq_some hfound)
    have heq := hnames _ hmem _ hmem' rfl (hname.trans hname'.symm)
    rw [← (Prod.mk.inj heq).2]
    rfl

/-- **None is run** when none has the name. -/
theorem gmWebHandlerRun_none (hnodup : (entries.map Prod.snd).Nodup) (hfuel : entries.length < fuel)
    {method : GmWebMethod} {uri : CString}
    (hnone : ∀ h, (method, h) ∈ entries → (record h).name ≠ handlerPath uri) :
    gmWebHandlerRun record (registerAll entries) fuel uri method = some none := by
  rw [gmWebHandlerRun_first hnodup hfuel]
  have hfound : ((TailQueues.queue entries method).find?
      fun h => (record h).name = handlerPath uri) = none := by
    refine List.find?_eq_none.mpr fun h hmem => ?_
    simpa using hnone h (TailQueues.mem_queue.mp hmem)
  rw [hfound]
  rfl

/-- **In whatever order they were registered**, the same one is run. -/
theorem gmWebHandlerRun_perm {entries' : List (GmWebMethod × ι)} (hnodup : (entries.map Prod.snd).Nodup)
    (hfuel : entries.length < fuel) (hnames : Unambiguous record entries) (hperm : entries' ~ entries)
    (uri : CString) (method : GmWebMethod) :
    gmWebHandlerRun record (registerAll entries') fuel uri method
      = gmWebHandlerRun record (registerAll entries) fuel uri method := by
  have hnodup' : (entries'.map Prod.snd).Nodup := (hperm.map _).nodup_iff.mpr hnodup
  have hfuel' : entries'.length < fuel := hperm.length_eq ▸ hfuel
  by_cases hany : ∃ h, (method, h) ∈ entries ∧ (record h).name = handlerPath uri
  · obtain ⟨h, hmem, hname⟩ := hany
    rw [gmWebHandlerRun_only hnodup hfuel hnames hmem hname,
      gmWebHandlerRun_only hnodup' hfuel' (hnames.perm hperm) (hperm.mem_iff.mpr hmem) hname]
  · have hnone : ∀ h, (method, h) ∈ entries → (record h).name ≠ handlerPath uri :=
      fun h hmem hname => hany ⟨h, hmem, hname⟩
    rw [gmWebHandlerRun_none hnodup hfuel hnone,
      gmWebHandlerRun_none hnodup' hfuel' fun h hmem => hnone h (hperm.mem_iff.mp hmem)]

end

/-- **A request runs what was registered for it.**  As long as no handler is registered twice the walk
along the queue ends, at the first handler of the method's with the path for a name; and the order of
registration does not matter where no two of a method have one name. -/
theorem runs_registered (record : ι → GmWebHandler F) {entries : List (GmWebMethod × ι)}
    (hnodup : (entries.map Prod.snd).Nodup) {fuel : ℕ} (hfuel : entries.length < fuel) (uri : CString)
    (method : GmWebMethod) :
    gmWebHandlerRun record (registerAll entries) fuel uri method
      = some (((TailQueues.queue entries method).find? fun h => (record h).name = handlerPath uri).map
        fun h => (record h).handler) ∧
    (Unambiguous record entries → ∀ entries', entries' ~ entries →
      gmWebHandlerRun record (registerAll entries') fuel uri method
        = gmWebHandlerRun record (registerAll entries) fuel uri method) :=
  ⟨gmWebHandlerRun_first hnodup hfuel uri method,
    fun hnames _ hperm => gmWebHandlerRun_perm hnodup hfuel hnames hperm uri method⟩

end Register

/-! ## The pages' handlers -/

/-- The handlers that there are. -/
inductive Installed where
  | settings
  | settingGet
  | settingPost
  deriving DecidableEq

namespace Installed

/-- The handler in static memory; the function is named by the handler itself. -/
def record : Installed → GmWebHandler Installed
  | .settings => ⟨"settings".toList, .settings⟩
  | .settingGet => ⟨"setting".toList, .settingGet⟩
  | .settingPost => ⟨"setting".toList, .settingPost⟩

/-- What the constructors register. -/
def installs : List (GmWebMethod × Installed) :=
  [(.get, .settings), (.post, .settingPost), (.get, .settingGet)]

theorem nodup_installs : (installs.map Prod.snd).Nodup := by decide

theorem unambiguous_installs : Unambiguous record installs := by
  unfold Unambiguous
  decide

end Installed

/-- The constructors may run in any order. -/
theorem runs_settings :
    gmWebHandlerRun Installed.record (registerAll Installed.installs) 4 "/setting".toList .get
      = some (((TailQueues.queue Installed.installs .get).find?
        fun h => (Installed.record h).name = handlerPath "/setting".toList).map
          fun h => (Installed.record h).handler) ∧
    (Unambiguous Installed.record Installed.installs → ∀ entries', entries' ~ Installed.installs →
      gmWebHandlerRun Installed.record (registerAll entries') 4 "/setting".toList .get
        = gmWebHandlerRun Installed.record (registerAll Installed.installs) 4 "/setting".toList .get) :=
  runs_registered Installed.record (by decide) (by decide) _ _

end Web
