import HtFirmware.Web.Link

/-!
# Web/Parameters — how far the parameters are stored

`gm_param_parse` is told how many parameters there is room for, and stores as many as the text has:
`count` is looked at nowhere.  So it stays within an array of so many exactly when the text does not
have that many equals signs and one more, with an ampersand between any two of them
(`staysWithin_iff`); which texts there are the client decides.
-/

open Machinery
open scoped List

namespace Web

/-! ## What is stored -/

/-- What `gm_param_parse` stores, each with its index in the array. -/
def paramStores (s : CString) : List ((CString × CString) × ℕ) := (gmParamParse s).2.zipIdx

/-- A call of `gm_param_parse`: one of any string and count, or that of one of its callers. -/
inductive ParamCall where
  | gmParamParse (s : CString) (count : ℤ)
  | gmUriParse (uri : CString)
  | settingPost (buffer : StackBuffer) (received : Received)

namespace ParamCall

/-- The string it is made with, if it is made. -/
def text : ParamCall → Option CString
  | .gmParamParse s _ => some s
  | .gmUriParse uri => (index '?' (if uri.head? = some '/' then uri.tail else uri)).map Prod.snd
  | .settingPost buffer received => (buffer.string received).toOption

/-- The count it is made with: what the array has room for. -/
def count : ParamCall → ℤ
  | .gmParamParse _ count => count
  | .gmUriParse _ => 10
  | .settingPost _ _ => 2

end ParamCall

/-- **Nothing is stored outside the array.** -/
def StaysWithin (c : ParamCall) : Prop := ∀ s ∈ c.text, ∀ store ∈ paramStores s, store.2 < c.count

/-- Some equals signs, with an ampersand between any two. -/
def alternation (n : ℕ) : CString := (List.replicate n '=').intersperse '&'

/-! ## How many there are -/

theorem alternation_succ_succ (n : ℕ) : alternation (n + 2) = '=' :: '&' :: alternation (n + 1) := rfl

/-- What is to be found first is found where it stands first. -/
theorem cons_sublist_append_cons {α : Type} {a : α} {l t r : List α} (h : a ∉ l) :
    a :: t <+ l ++ a :: r ↔ t <+ r := by
  refine ⟨fun hsub => ?_, fun hsub => (hsub.cons_cons a).trans (List.sublist_append_right l _)⟩
  induction l with
  | nil => exact List.cons_sublist_cons.mp hsub
  | cons b l ih =>
    obtain ⟨hb, hl⟩ := List.ne_and_not_mem_of_not_mem_cons h
    cases hsub with
    | cons _ hsub => exact ih hl hsub
    | cons_cons => exact absurd rfl hb

/-- **So many parameters are stored as there are equals signs**, counted with an ampersand between any
two. -/
theorem le_length_gmParamParse_iff {s : CString} : ∀ n : ℕ,
    n ≤ (gmParamParse s).2.length ↔ alternation n <+ s := by
  fun_induction gmParamParse s with
  | case1 s hs =>
    rintro (_ | n)
    · exact iff_of_true (Nat.le_refl 0) (List.nil_sublist s)
    · refine iff_of_false (Nat.not_succ_le_zero n) fun hsub => notMem_of_index hs (hsub.subset ?_)
      cases n <;> exact List.mem_cons_self
  | case2 s name rest hs hrest =>
    obtain ⟨rfl, hname⟩ := eq_of_index hs
    rintro (_ | _ | n)
    · exact iff_of_true (Nat.zero_le 1) (List.nil_sublist _)
    · exact iff_of_true (Nat.le_refl 1)
        ((cons_sublist_append_cons hname).mpr (List.nil_sublist rest))
    · refine iff_of_false (fun h => Nat.not_succ_le_zero n (Nat.le_of_succ_le_succ h)) fun hsub => ?_
      rw [alternation_succ_succ, cons_sublist_append_cons hname] at hsub
      exact notMem_of_index hrest (hsub.subset List.mem_cons_self)
  | case3 s name rest hs value s' hrest parsed ih =>
    obtain ⟨rfl, hname⟩ := eq_of_index hs
    obtain ⟨rfl, hvalue⟩ := eq_of_index hrest
    rintro (_ | _ | n)
    · exact iff_of_true (Nat.zero_le _) (List.nil_sublist _)
    · exact iff_of_true (Nat.succ_le_succ (Nat.zero_le _))
        ((cons_sublist_append_cons hname).mpr (List.nil_sublist _))
    · rw [alternation_succ_succ, cons_sublist_append_cons hname, cons_sublist_append_cons hvalue,
        ← ih, List.length_cons]
      exact Nat.add_le_add_iff_right

/-- The stores reach as far as there are parameters. -/
theorem forall_paramStores_iff {s : CString} {count : ℤ} :
    (∀ store ∈ paramStores s, store.2 < count) ↔ (gmParamParse s).2.length ≤ count.toNat := by
  unfold paramStores
  generalize (gmParamParse s).2 = params
  constructor
  · intro h
    obtain hnil | hpos := Nat.eq_zero_or_pos params.length
    · omega
    · have hlast : params.length - 1 < params.length := by omega
      have hmem := List.getElem_mem (l := params.zipIdx) (n := params.length - 1) (by simpa using hlast)
      have hlt := h _ hmem
      rw [List.getElem_zipIdx] at hlt
      dsimp only at hlt
      omega
  · intro hle store hmem
    have hlt := List.snd_lt_of_mem_zipIdx hmem
    omega

/-- There are no more parameters than equals signs with an ampersand between any two. -/
theorem forall_paramStores_iff_alternation {s : CString} {count : ℤ} :
    (∀ store ∈ paramStores s, store.2 < count) ↔ ¬ alternation (count.toNat + 1) <+ s := by
  rw [forall_paramStores_iff, ← le_length_gmParamParse_iff, Nat.not_le, Nat.lt_succ_iff]

/-- **The array is not left exactly when the text has no more equals signs than it has room for
parameters**, counted with an ampersand between any two. -/
theorem staysWithin_iff (c : ParamCall) :
    StaysWithin c ↔ ∀ s ∈ c.text, ¬ alternation (c.count.toNat + 1) <+ s :=
  forall₂_congr fun _ _ => forall_paramStores_iff_alternation

/-- What `gm_uri_parse` comes to its end with was stored within the array. -/
theorem staysWithin_of_gmUriParse {uri : CString} {u : GmUri} (h : gmUriParse uri = .ok u) :
    StaysWithin (.gmUriParse uri) := by
  intro query hquery
  obtain ⟨decoded, -, h⟩ := bind_ok h
  obtain ⟨⟨path, query⟩, hindex, rfl⟩ := Option.map_eq_some_iff.mp hquery
  dsimp only at h hindex
  rw [hindex] at h
  dsimp only at h
  split_ifs at h with hmore
  exact forall_paramStores_iff.mpr (Nat.le_of_not_lt hmore)

/-- Nor did `setting_post` leave its array, if it came to its end. -/
theorem staysWithin_of_settingPost {s : Nvs.Store} {buffer : StackBuffer} {calls : List Received}
    {err : Nvs.EspErr} {answered : Answered} (h : settingPost s buffer calls err = .ok answered) :
    StaysWithin (.settingPost buffer (httpdReqRecv calls)) := by
  intro text htext
  obtain ⟨text', hreceived, h⟩ := bind_ok h
  dsimp only [ParamCall.text] at htext
  rw [hreceived] at htext
  obtain rfl := Option.some.inj htext
  dsimp only at h
  split_ifs at h with hmore
  exact forall_paramStores_iff.mpr (Nat.le_of_not_lt hmore)

/-- **Three parameters are stored where there is room for two, and eleven where there is for ten.** -/
theorem not_staysWithin_more :
    ¬ StaysWithin (.settingPost ⟨List.replicate 1024 '\x00', List.length_replicate⟩
        (.bytes "a=&b=&c=".toList)) ∧
      ¬ StaysWithin (.gmUriParse "/?a=&b=&c=&d=&e=&f=&g=&h=&i=&j=&k=".toList) := by
  have hpost : ¬ StaysWithin (.gmParamParse "a=&b=&c=".toList 2) := fun h =>
    forall_paramStores_iff_alternation.mp (h _ rfl) (by decide)
  have hparse : ¬ StaysWithin (.gmParamParse "a=&b=&c=&d=&e=&f=&g=&h=&i=&j=&k=".toList 10) :=
    fun h => forall_paramStores_iff_alternation.mp (h _ rfl) (by decide)
  exact ⟨fun h => hpost fun s hs => h s hs, fun h => hparse fun s hs => h s hs⟩

end Web
