import HtFirmware.Machinery.Fallible
import HtFirmware.Machinery.Text
import HtFirmware.Support.GmArray
import Mathlib.Data.List.Perm.Basic

/-!
# Support/Commands — the commands of the console

    constructors  ──▸  array  ──▸  qsort  ──▸  the console

Each command is registered by a constructor, before `main` runs; in what order is the linker's choice.
Then they are sorted by their names, each is read from the array and given to the console, and the array
is freed.  The pointer to it stays.

`qsort` is any function that sorts.  As no two commands have one name, the console is given all of them in
the alphabet's order, whatever the linker's was (`console_sorted`).
-/

open Machinery
open scoped List

namespace Support

variable {κ : Type}

/-! ## The functions -/

/-- `strcmp`. -/
def strcmp : CString → CString → ℤ
  | [], [] => 0
  | [], _ :: _ => -1
  | _ :: _, [] => 1
  | c :: s, d :: t => if c = d then strcmp s t else c.toNat - d.toNat

/-- `compare`, of two pointers to commands, which have names. -/
def compare (command : κ → CString) (a b : κ) : ℤ := strcmp (command a) (command b)

/-- What becomes of a call without a result: the array was freed, it is written outside its block, a read
of it goes wrong, or `ESP_ERROR_CHECK` aborts. -/
inductive CommandFault where
  | freed
  | outside
  | get (fault : GetFault)
  | aborts

/-- The static variable `array`. -/
inductive CommandArray (κ : Type) where
  | null
  | created (a : GmArray κ)
  | destroyed

/-- `gm_command_register`. -/
def gmCommandRegister (s : CommandArray κ) (c : κ) : Except CommandFault (CommandArray κ) :=
  let add (a : GmArray κ) : Except CommandFault (CommandArray κ) :=
    match gmArrayAdd a c with
    | some a => .ok (.created a)
    | none => .error .outside
  match s with
  | .null => add gmArrayCreate
  | .created a => add a
  | .destroyed => .error .freed

/-- `gm_array_get`, and a fault of it. -/
def getCommand (a : GmArray κ) (i : UInt32) : Except CommandFault κ :=
  match gmArrayGet a i with
  | .ok c => .ok c
  | .error fault => .error (.get fault)

section Console

variable (qsort : (κ → κ → ℤ) → List κ → List κ) (command : κ → CString) (accepts : κ → Bool)

/-- The call of `qsort`, which has to read as many pointers as were written. -/
def sortCommands (a : GmArray κ) : Except CommandFault (GmArray κ) :=
  match ((gmArrayData a).take (gmArraySize a).toNat).mapM id with
  | some cs =>
    .ok { a with
      data := (qsort (compare command) cs).map some ++ a.data.drop (gmArraySize a).toNat }
  | none => .error (.get .indeterminate)

/-- `ESP_ERROR_CHECK(esp_console_cmd_register(c))`. -/
def espConsoleCmdRegister (c : κ) : Except CommandFault κ :=
  if accepts c then .ok c else .error .aborts

/-- The loop, which gives the console one command after the other. -/
def giveCommands (a : GmArray κ) (size : UInt32) : Except CommandFault (List κ) :=
  (List.range size.toNat).mapM fun i => do
    espConsoleCmdRegister accepts (← getCommand a (.ofNat i))

/-- `gm_command_add_registered_to_console`, and the commands that the console is given. -/
def gmCommandAddRegisteredToConsole : CommandArray κ → Except CommandFault (CommandArray κ × List κ)
  | .null => .ok (.null, [])
  | .destroyed => .error .freed
  | .created a =>
    if gmArraySize a = 0 then .ok (.created a, [])
    else do
      let sorted ← sortCommands qsort command a
      let given ← giveCommands accepts sorted (gmArraySize a)
      .ok (.destroyed, given)

/-- The constructors run in some order, and then the command interpreter is started. -/
def startConsole (order : List κ) : Except CommandFault (CommandArray κ × List κ) := do
  gmCommandAddRegisteredToConsole qsort command accepts (← order.foldlM gmCommandRegister .null)

end Console

/-! ## The order of names -/

/-- **The alphabet's order.** -/
def Alphabetical : CString → CString → Prop := List.Lex fun c d => c.toNat < d.toNat

theorem strcmp_cons_nonpos_iff {c d : Char} {s t : CString} : strcmp (c :: s) (d :: t) ≤ 0 ↔
    c.toNat < d.toNat ∨ c = d ∧ strcmp s t ≤ 0 := by
  rw [strcmp]
  split_ifs with hcd
  · subst hcd
    simp
  · have hne : c.toNat ≠ d.toNat := fun h => hcd (Char.toNat_inj.mp h)
    simp only [hcd, false_and, or_false]
    omega

theorem strcmp_neg_iff : ∀ {s t : CString}, strcmp s t < 0 ↔ Alphabetical s t := by
  intro s
  induction s with
  | nil =>
    rintro (_ | ⟨d, t⟩)
    · exact iff_of_false (Int.lt_irrefl 0) (fun h => by cases h)
    · exact iff_of_true (show (-1 : ℤ) < 0 by decide) .nil
  | cons c s ih =>
    rintro (_ | ⟨d, t⟩)
    · exact iff_of_false (show ¬ (1 : ℤ) < 0 by decide) (fun h => by cases h)
    · rw [strcmp, Alphabetical, List.cons_lex_cons_iff, ← Alphabetical]
      split_ifs with hcd
      · subst hcd
        simp [ih]
      · simp only [hcd, false_and, or_false]
        omega

theorem strcmp_comm : ∀ s t : CString, strcmp t s = -strcmp s t := by
  intro s
  induction s with
  | nil => rintro (_ | ⟨d, t⟩) <;> rfl
  | cons c s ih =>
    rintro (_ | ⟨d, t⟩)
    · rfl
    · rw [strcmp, strcmp]
      split_ifs with hdc hcd hcd
      · exact ih t
      · exact absurd hdc.symm hcd
      · exact absurd hcd.symm hdc
      · exact (Int.neg_sub _ _).symm

theorem strcmp_eq_zero : ∀ {s t : CString}, strcmp s t = 0 → s = t := by
  intro s
  induction s with
  | nil =>
    rintro (_ | ⟨d, t⟩) h
    · rfl
    · cases h
  | cons c s ih =>
    rintro (_ | ⟨d, t⟩) h
    · cases h
    · rw [strcmp] at h
      split_ifs at h with hcd
      · rw [hcd, ih h]
      · exact absurd (Char.toNat_inj.mp (by omega)) hcd

theorem strcmp_trans : ∀ {s t u : CString}, strcmp s t ≤ 0 → strcmp t u ≤ 0 → strcmp s u ≤ 0 := by
  intro s
  induction s with
  | nil =>
    rintro - (_ | ⟨e, u⟩) - -
    · exact Int.le_refl 0
    · exact show (-1 : ℤ) ≤ 0 by decide
  | cons c s ih =>
    rintro (_ | ⟨d, t⟩) (_ | ⟨e, u⟩) hst htu
    · exact absurd hst (show ¬ (1 : ℤ) ≤ 0 by decide)
    · exact absurd hst (show ¬ (1 : ℤ) ≤ 0 by decide)
    · exact absurd htu (show ¬ (1 : ℤ) ≤ 0 by decide)
    · rw [strcmp_cons_nonpos_iff] at hst htu ⊢
      obtain hcd | ⟨rfl, hst⟩ := hst <;> obtain hde | ⟨rfl, htu⟩ := htu
      · exact .inl (hcd.trans hde)
      · exact .inl hcd
      · exact .inl hde
      · exact .inr ⟨rfl, ih hst htu⟩

/-! ## Functions that sort -/

/-- A function that compares as `qsort` requires it. -/
structure Compares (cmp : κ → κ → ℤ) : Prop where
  opposite : ∀ a b, cmp a b < 0 ↔ 0 < cmp b a
  trans : ∀ a b c, cmp a b ≤ 0 → cmp b c ≤ 0 → cmp a c ≤ 0

/-- **What `qsort` promises** of a function that compares; what becomes of members that are equal is not
said. -/
structure Sorts (qsort : (κ → κ → ℤ) → List κ → List κ) : Prop where
  perm : ∀ cmp l, Compares cmp → qsort cmp l ~ l
  sorted : ∀ cmp l, Compares cmp → (qsort cmp l).Pairwise fun a b => cmp a b ≤ 0

section Sorting

variable {qsort : (κ → κ → ℤ) → List κ → List κ} {command : κ → CString} {accepts : κ → Bool}
  {cs order : List κ} {a : GmArray κ}

theorem compares_compare : Compares (compare command) where
  opposite a b := by
    have hcomm := strcmp_comm (command a) (command b)
    unfold compare
    omega
  trans _ _ _ := strcmp_trans

/-- Names that are sorted, of which no two are equal, are in the alphabet's order. -/
theorem alphabetical_of_sorted (hnames : (cs.map command).Nodup)
    (hsorted : cs.Pairwise fun a b => compare command a b ≤ 0) :
    cs.Pairwise fun a b => Alphabetical (command a) (command b) := by
  refine (hsorted.and (List.pairwise_map.mp hnames)).imp fun ⟨hle, hne⟩ => ?_
  exact strcmp_neg_iff.mp (Int.lt_iff_le_and_ne.mpr ⟨hle, mt strcmp_eq_zero hne⟩)

/-- **There is one order of the alphabet.** -/
theorem eq_of_alphabetical {cs' : List κ} (hperm : cs ~ cs')
    (h : cs.Pairwise fun a b => Alphabetical (command a) (command b))
    (h' : cs'.Pairwise fun a b => Alphabetical (command a) (command b)) : cs = cs' := by
  refine hperm.eq_of_pairwise (fun a b _ _ hab hba => ?_) h h'
  have hcomm := strcmp_comm (command a) (command b)
  have := strcmp_neg_iff.mpr hab
  have := strcmp_neg_iff.mpr hba
  omega

/-! ## What is in the array -/

theorem mapM_id_map_some (l : List κ) : (l.map some).mapM id = some l := by
  induction l with
  | nil => rfl
  | cons c l ih =>
    rw [List.map_cons, List.mapM_cons, ih]
    rfl

/-- What was written is the first of the block. -/
theorem Holding.written (h : Holding cs a) :
    ((gmArrayData a).take (gmArraySize a).toNat).mapM id = some cs := by
  have htake : (gmArrayData a).take (gmArraySize a).toNat = cs.map some := by
    refine List.ext_getElem? fun i => ?_
    rw [gmArrayData, gmArraySize, h.used]
    by_cases hi : i < cs.length
    · rw [List.getElem?_take_of_lt hi, h.data i hi, List.getElem?_map, List.getElem?_eq_getElem hi]
      rfl
    · have hge := Nat.not_lt.mp hi
      rw [List.getElem?_take_eq_none hge, List.getElem?_eq_none (by rw [List.length_map]; exact hge)]
  rw [htake, mapM_id_map_some]

/-- **Other members in another order**, in the same places. -/
theorem Holding.reorder (h : Holding cs a) {cs' : List κ} (hperm : cs' ~ cs) :
    Holding cs' { a with data := cs'.map some ++ a.data.drop (gmArraySize a).toNat } := by
  have hlength := hperm.length_eq
  have hblock := h.block
  have hfits := h.fits
  refine ⟨hlength ▸ h.used, hlength ▸ h.fits, h.steps, h.small, ?_, fun i hi => ?_⟩
  · dsimp only
    rw [List.length_append, List.length_map, List.length_drop, gmArraySize, h.used]
    omega
  · dsimp only
    rw [List.getElem?_append_left (by rw [List.length_map]; exact hi), List.getElem?_map,
      List.getElem?_eq_getElem hi]
    rfl

/-! ## The run -/

/-- The constructors add to the array what they register, in their order. -/
theorem foldlM_register (hsome : order ≠ []) (hfew : order.length ≤ maximumUsed) :
    ∃ a, order.foldlM gmCommandRegister .null = .ok (.created a) ∧ Holding order a := by
  obtain ⟨c, rest, rfl⟩ := List.exists_cons_of_ne_nil hsome
  obtain ⟨a, ha, hholding⟩ := holding_foldlM (c :: rest) hfew
  refine ⟨a, ?_, hholding⟩
  -- the first creates the array
  have hfirst : (c :: rest).foldlM gmCommandRegister .null
      = (c :: rest).foldlM gmCommandRegister (.created gmArrayCreate) := rfl
  have hadds : ∀ (l : List κ) (a b : GmArray κ), l.foldlM gmArrayAdd a = some b →
      l.foldlM gmCommandRegister (.created a) = .ok (.created b) := by
    intro l
    induction l with
    | nil =>
      intro a b h
      rw [← Option.some.inj h]
      rfl
    | cons c l ih =>
      intro a b h
      obtain ⟨next, hnext, h⟩ := Option.bind_eq_some_iff.mp h
      have hregister : gmCommandRegister (.created a) c = .ok (.created next) := by
        simp only [gmCommandRegister, hnext]
      rw [List.foldlM_cons, hregister]
      exact ih next b h
  rw [hfirst]
  exact hadds _ _ _ ha

/-- A loop over the indices of a list. -/
theorem mapM_range {ε β : Type} {l : List κ} {g : κ → Except ε β} {f : ℕ → Except ε β}
    (h : ∀ i (hi : i < l.length), f i = g l[i]) : (List.range l.length).mapM f = l.mapM g := by
  induction l generalizing f with
  | nil => rfl
  | cons c l ih =>
    have hfirst : f 0 = g c := h 0 (Nat.zero_lt_succ _)
    have hrest : (List.range l.length).mapM (f ∘ Nat.succ) = l.mapM g :=
      ih fun i hi => h (i + 1) (Nat.succ_lt_succ hi)
    rw [List.length_cons, List.range_succ_eq_map, List.mapM_cons, List.mapM_map, hfirst, hrest,
      List.mapM_cons]

/-- The console is given all, or refuses one. -/
theorem mapM_espConsoleCmdRegister (l : List κ) : l.mapM (espConsoleCmdRegister accepts)
    = if ∀ c ∈ l, accepts c then .ok l else .error .aborts := by
  induction l with
  | nil => rfl
  | cons c l ih =>
    rw [List.mapM_cons, ih, espConsoleCmdRegister]
    simp only [List.forall_mem_cons]
    by_cases hc : accepts c
    · simp only [hc, if_true, true_and]
      split_ifs <;> rfl
    · rw [if_neg hc, if_neg (not_and_of_not_left _ hc)]
      rfl

/-- The loop reads what is in the array. -/
theorem Lists.giveCommands (h : Lists cs a) : giveCommands accepts a (gmArraySize a)
    = if ∀ c ∈ cs, accepts c then .ok cs else .error .aborts := by
  rw [Support.giveCommands, h.size, mapM_range (g := espConsoleCmdRegister accepts) fun i hi => ?_,
    mapM_espConsoleCmdRegister]
  rw [getCommand, h.get i hi]
  rfl

/-- The array is sorted. -/
theorem Holding.sortCommands (h : Holding cs a) (hqsort : Sorts qsort) (command : κ → CString) :
    ∃ sorted, sortCommands qsort command a = .ok sorted ∧ gmArraySize sorted = gmArraySize a ∧
      Holding (qsort (compare command) cs) sorted := by
  have hreordered := h.reorder (hqsort.perm _ cs (@compares_compare κ command))
  refine ⟨_, ?_, ?_, hreordered⟩
  · rw [Support.sortCommands, h.written]
  · rfl

/-- **One run of the constructors**, in their order. -/
theorem startConsole_eq (hqsort : Sorts qsort) (hsome : order ≠ []) (hfew : order.length ≤ maximumUsed) :
    startConsole qsort command accepts order
      = if ∀ c ∈ order, accepts c then .ok (.destroyed, qsort (compare command) order)
        else .error .aborts := by
  obtain ⟨a, hregistered, hholding⟩ := foldlM_register hsome hfew
  obtain ⟨sorted, hsort, hsame, hreordered⟩ := hholding.sortCommands hqsort command
  have hperm := hqsort.perm _ order (@compares_compare κ command)
  have hpositive : 0 < (qsort (compare command) order).length :=
    hperm.length_eq ▸ List.length_pos_iff.mpr hsome
  have hsize : gmArraySize a ≠ 0 := by
    intro hzero
    have hused := hholding.used
    rw [← gmArraySize, hzero] at hused
    exact hsome (List.length_eq_zero_iff.mp hused.symm)
  have hmem : (∀ c ∈ qsort (compare command) order, accepts c) ↔ ∀ c ∈ order, accepts c :=
    forall_congr' fun c => imp_congr_left hperm.mem_iff
  have hgiven : giveCommands accepts sorted (gmArraySize sorted) = _ :=
    (hreordered.lists hpositive).giveCommands
  rw [hsame] at hgiven
  rw [startConsole, hregistered]
  change gmCommandAddRegisteredToConsole qsort command accepts (.created a) = _
  rw [gmCommandAddRegisteredToConsole, if_neg hsize, hsort]
  change (giveCommands accepts sorted (gmArraySize a)).bind _ = _
  rw [hgiven]
  simp only [hmem]
  split_ifs <;> rfl

/-- **The console is given all commands in the order of the alphabet**, whatever the order was in which
they were registered; unless it refuses one, and then the firmware stops. -/
theorem console_sorted (hqsort : Sorts qsort) (hnames : (cs.map command).Nodup) (hsome : cs ≠ [])
    (hfew : cs.length ≤ maximumUsed) :
    ∃ sorted, sorted ~ cs ∧ (sorted.Pairwise fun a b => Alphabetical (command a) (command b)) ∧
      ∀ order, order ~ cs → startConsole qsort command accepts order
        = if ∀ c ∈ cs, accepts c then .ok (.destroyed, sorted) else .error .aborts := by
  have hsorted : ∀ order, order ~ cs → qsort (compare command) order ~ cs ∧
      (qsort (compare command) order).Pairwise fun a b => Alphabetical (command a) (command b) := by
    intro order horder
    have hperm := (hqsort.perm _ order (@compares_compare κ command)).trans horder
    refine ⟨hperm, alphabetical_of_sorted ?_ (hqsort.sorted _ _ compares_compare)⟩
    exact (hperm.map command).nodup_iff.mpr hnames
  obtain ⟨hperm, halphabetical⟩ := hsorted cs (.refl _)
  refine ⟨_, hperm, halphabetical, fun order horder => ?_⟩
  obtain ⟨hperm', halphabetical'⟩ := hsorted order horder
  have hsame := eq_of_alphabetical (hperm'.trans hperm.symm) halphabetical' halphabetical
  have hmem : (∀ c ∈ order, accepts c) ↔ ∀ c ∈ cs, accepts c :=
    forall_congr' fun c => imp_congr_left horder.mem_iff
  have hne : order ≠ [] := fun hnil => hsome (hnil ▸ horder).nil_eq.symm
  rw [startConsole_eq hqsort hne (horder.length_eq.symm ▸ hfew), hsame]
  simp only [hmem]

end Sorting

/-! ## The commands there are -/

/-- The commands of the firmware. -/
inductive Command where
  | nv | gpio | fds | uptime | ddns | wget | restart | tasks | date | stun | pcp | publicIp
  deriving DecidableEq

/-- Their names. -/
def Command.command : Command → CString
  | .nv => "nv".toList
  | .gpio => "gpio".toList
  | .fds => "fds".toList
  | .uptime => "uptime".toList
  | .ddns => "ddns".toList
  | .wget => "wget".toList
  | .restart => "restart".toList
  | .tasks => "tasks".toList
  | .date => "date".toList
  | .stun => "stun".toList
  | .pcp => "pcp".toList
  | .publicIp => "public_ip".toList

def commands : List Command :=
  [.nv, .gpio, .fds, .uptime, .ddns, .wget, .restart, .tasks, .date, .stun, .pcp, .publicIp]

/-- Merging sorts. -/
theorem sorts_mergeSort : Sorts fun (cmp : κ → κ → ℤ) l => l.mergeSort fun a b => cmp a b ≤ 0 where
  perm _ l _ := List.mergeSort_perm l _
  sorted cmp l h := by
    have hsorted := @List.pairwise_mergeSort κ (fun a b => decide (cmp a b ≤ 0))
      (fun a b c => by simpa using h.trans a b c)
      (fun a b => by
        have hopposite := h.opposite b a
        simp only [Bool.or_eq_true, decide_eq_true_eq]
        omega) l
    simpa using hsorted

theorem console_sorted_commands :
    ∃ sorted, sorted ~ commands ∧
      (sorted.Pairwise fun a b => Alphabetical (Command.command a) (Command.command b)) ∧
      ∀ order, order ~ commands →
        startConsole (fun cmp l => l.mergeSort fun a b => cmp a b ≤ 0) Command.command (fun _ => true) order
          = if ∀ c ∈ commands, (fun _ : Command => true) c then .ok (.destroyed, sorted)
            else .error .aborts :=
  console_sorted sorts_mergeSort (by decide) (by decide) (by decide)

end Support
