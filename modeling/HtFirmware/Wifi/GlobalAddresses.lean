import HtFirmware.Wifi.Networks

/-!
# Wifi/GlobalAddresses — the table of global addresses

`ip_event_got_ip6` looks for a global address among the first two of the three entries, and writes it to
the first of them that is free.  So what an interface holds is the first two of the addresses it was
given (`foldl_ipEventGotIp6`), and the third entry stays zero.
-/

open Machinery

namespace Wifi

open Pcp (EspNetif GmInterfaceIndex)

/-! ## The table -/

/-- The table that holds some addresses, as far as they fit. -/
def listed (addresses : List (Bytes 16)) : Fin 3 → Bytes 16 :=
  fun j => addresses[(j : ℕ)]?.getD fun _ => 0

section Table

variable {esp : EspNetif} {ip : Bytes 16} {addresses : List (Bytes 16)}

/-- A global address is one of `2000::/3`. -/
theorem ne_zero_of_global (h : esp.getAddrType ip = .global) : ip 0 ≠ 0 := by
  intro hzero
  have hleading := esp.of_global ip h
  rw [hzero] at hleading
  exact absurd hleading (by decide)

/-- So it is not taken for a free entry. -/
theorem not_free_of_global (h : esp.getAddrType ip = .global) :
    Support.gmAllZeroes aligned (List.ofFn ip) 4 ≠ some true := by
  have hfalse : Support.gmAllZeroes aligned (List.ofFn ip) 4 = some false :=
    Support.gmAllZeroes_of_ne_zero (ne_zero_of_global h) aligned (ip 1) (ip 2) (ip 3) _ 4 (by decide)
  rw [hfalse]
  decide

theorem free_zero :
    Support.gmAllZeroes aligned (List.ofFn fun _ : Fin 16 => (0 : UInt8)) 4 = some true := by
  decide

theorem storeGlobal_self {global : Fin 3 → Bytes 16} {i : Fin 3} (is : List (Fin 3))
    (h : global i = ip) : storeGlobal ip global (i :: is) = global := by
  rw [storeGlobal, if_pos h]

/-- The loop goes past an entry that holds another address. -/
theorem storeGlobal_of_ne {global : Fin 3 → Bytes 16} {i : Fin 3} (is : List (Fin 3))
    (hother : esp.getAddrType (global i) = .global) (hne : global i ≠ ip) :
    storeGlobal ip global (i :: is) = storeGlobal ip global is := by
  rw [storeGlobal, if_neg hne, if_neg (not_free_of_global hother)]

/-- It writes to an entry that is zero. -/
theorem storeGlobal_of_zero {global : Fin 3 → Bytes 16} {i : Fin 3} (is : List (Fin 3))
    (hip : esp.getAddrType ip = .global) (hzero : global i = fun _ => 0) :
    storeGlobal ip global (i :: is) = Function.update global i ip := by
  have hne : global i ≠ ip := fun h => ne_zero_of_global hip (by rw [← h, hzero])
  rw [storeGlobal, if_neg hne, hzero, if_pos free_zero]

/-- **An address that is not among the first two is written behind them.** -/
theorem storeGlobal_listed (haddresses : ∀ a ∈ addresses, esp.getAddrType a = .global)
    (hip : esp.getAddrType ip = .global) :
    storeGlobal ip (listed (addresses.take 2)) (List.finRange 3).dropLast
      = listed ((if ip ∈ addresses then addresses else addresses ++ [ip]).take 2) := by
  have hloop : (List.finRange 3).dropLast = [0, 1] := by decide
  rw [hloop]
  rcases addresses with _ | ⟨a, _ | ⟨b, rest⟩⟩
  · rw [storeGlobal_of_zero _ hip rfl, if_neg List.not_mem_nil]
    funext j
    fin_cases j <;> rfl
  · have hfirst : listed [a] 0 = a := rfl
    have htake : [a].take 2 = [a] := rfl
    rw [htake]
    by_cases hsame : a = ip
    · rw [storeGlobal_self _ (hfirst.trans hsame), hsame, if_pos (List.mem_singleton_self ip)]
      rfl
    · rw [storeGlobal_of_ne _ (hfirst ▸ haddresses a (List.mem_singleton_self a)) (hfirst ▸ hsame),
        storeGlobal_of_zero _ hip rfl, if_neg fun h => hsame (List.mem_singleton.mp h).symm]
      funext j
      fin_cases j <;> rfl
  · have hfirst : listed [a, b] 0 = a := rfl
    have hsecond : listed [a, b] 1 = b := rfl
    have htake : (a :: b :: rest).take 2 = [a, b] := rfl
    have hsame : (if ip ∈ a :: b :: rest then a :: b :: rest
        else a :: b :: rest ++ [ip]).take 2 = [a, b] := by split_ifs <;> rfl
    rw [htake, hsame]
    by_cases ha : a = ip
    · exact storeGlobal_self _ (hfirst.trans ha)
    · rw [storeGlobal_of_ne _ (hfirst ▸ haddresses a (by simp)) (hfirst ▸ ha)]
      by_cases hb : b = ip
      · exact storeGlobal_self _ (hsecond.trans hb)
      · rw [storeGlobal_of_ne _ (hsecond ▸ haddresses b (by simp)) (hsecond ▸ hb), storeGlobal]

end Table

/-! ## Runs of events -/

section Events

variable {esp : EspNetif} {netifName : String} {i : GmInterfaceIndex} {s : State}

theorem eraseDups_concat (ips : List (Bytes 16)) (ip : Bytes 16) :
    (ips ++ [ip]).eraseDups = if ip ∈ ips.eraseDups then ips.eraseDups else ips.eraseDups ++ [ip] := by
  rw [List.eraseDups_append]
  by_cases hmem : ip ∈ ips
  · rw [if_pos (List.mem_eraseDups.mpr hmem)]
    simp [List.removeAll, hmem]
  · rw [if_neg (List.mem_eraseDups.not.mpr hmem)]
    simp [List.removeAll, hmem, List.eraseDups_cons]

/-- What one event writes. -/
theorem ipEventGotIp6_of_kind (hname : interfaceNamed netifName = some i) {ip : Bytes 16}
    (hkind : esp.getAddrType ip = .global) :
    s.ipEventGotIp6 esp netifName ip = s.modify i fun interface => { interface with
      ip6.global := storeGlobal ip interface.ip6.global (List.finRange 3).dropLast } := by
  unfold State.ipEventGotIp6 storeIp6
  rw [hname, hkind]

/-- **The first two of the addresses are held.** -/
theorem foldl_ipEventGotIp6 (hname : interfaceNamed netifName = some i)
    (hempty : (s.netInterfaces i).ip6.global = fun _ _ => 0) {ips : List (Bytes 16)}
    (hips : ∀ ip ∈ ips, esp.getAddrType ip = .global) :
    ips.foldl (fun s ip => s.ipEventGotIp6 esp netifName ip) s = s.modify i fun interface =>
      { interface with ip6.global := listed (ips.eraseDups.take 2) } := by
  induction ips using List.reverseRecOn with
  | nil =>
    have hlisted : listed (List.take 2 ([] : List (Bytes 16)).eraseDups) = fun _ _ => 0 := rfl
    rw [List.foldl_nil, hlisted, ← hempty]
    exact (congrArg (fun n => { s with netInterfaces := n }) (Function.update_eq_self i _)).symm
  | append_singleton ips ip ih =>
    have hearlier : ∀ a ∈ ips, esp.getAddrType a = .global := fun a ha =>
      hips a (List.mem_append_left _ ha)
    have hip := hips ip (List.mem_append_right _ (List.mem_singleton_self ip))
    have hdistinct : ∀ a ∈ ips.eraseDups, esp.getAddrType a = .global := fun a ha =>
      hearlier a (List.mem_eraseDups.mp ha)
    rw [List.foldl_append, ih hearlier, List.foldl_cons, List.foldl_nil,
      ipEventGotIp6_of_kind hname hip, eraseDups_concat, ← storeGlobal_listed hdistinct hip]
    simp only [State.modify, Function.update_self, Function.update_idem]

/-- **The interface holds the first three of the addresses, and nothing else changes, exactly when there
are no more than two.** -/
theorem holds_first_iff (hname : interfaceNamed netifName = some i)
    (hempty : (s.netInterfaces i).ip6.global = fun _ _ => 0) {ips : List (Bytes 16)}
    (hips : ∀ ip ∈ ips, esp.getAddrType ip = .global) :
    ips.foldl (fun s ip => s.ipEventGotIp6 esp netifName ip) s = s.modify i (fun interface =>
      { interface with ip6.global := listed ips.eraseDups }) ↔ ips.eraseDups.length ≤ 2 := by
  rw [foldl_ipEventGotIp6 hname hempty hips]
  constructor
  · intro h
    have hthird := congrFun (congrArg (fun s => (s.netInterfaces i).ip6.global) h) 2
    simp only [State.modify, Function.update_self] at hthird
    by_contra hlong
    have hlt : 2 < ips.eraseDups.length := Nat.lt_of_not_le hlong
    have hget : listed ips.eraseDups 2 = ips.eraseDups[2] := by
      simp [listed, hlt]
    have hzero : listed (ips.eraseDups.take 2) 2 = fun _ => 0 := by
      simp [listed]
    have hip := hips _ (List.mem_eraseDups.mp (List.getElem_mem hlt))
    exact ne_zero_of_global hip (congrFun (hget.symm.trans (hthird.symm.trans hzero)) 0)
  · intro h
    rw [List.take_of_length_le h]

/-- Two addresses, one of them twice. -/
theorem holds_first_two :
    let ips : List (Bytes 16) := [![0x20, 1, 0, 0, 0, 0, 0, 0, 0, 0, 0, 0, 0, 0, 0, 1],
      ![0x20, 1, 0, 0, 0, 0, 0, 0, 0, 0, 0, 0, 0, 0, 0, 2],
      ![0x20, 1, 0, 0, 0, 0, 0, 0, 0, 0, 0, 0, 0, 0, 0, 1]]
    ips.foldl (fun s ip => s.ipEventGotIp6 Pcp.lwipNetif "st1" ip) {} = State.modify {} .sta
      fun interface => { interface with ip6.global := listed ips.eraseDups } :=
  (holds_first_iff (i := .sta) rfl rfl fun ip hip => by
    obtain rfl | rfl | rfl : ip = _ ∨ ip = _ ∨ ip = _ := by simpa using hip
    all_goals decide).mpr (by decide)

/-- Of three addresses, the third is not held. -/
theorem not_holds_third :
    let ips : List (Bytes 16) := [![0x20, 1, 0, 0, 0, 0, 0, 0, 0, 0, 0, 0, 0, 0, 0, 1],
      ![0x20, 1, 0, 0, 0, 0, 0, 0, 0, 0, 0, 0, 0, 0, 0, 2],
      ![0x20, 1, 0, 0, 0, 0, 0, 0, 0, 0, 0, 0, 0, 0, 0, 3]]
    (ips.all fun ip => Pcp.lwipNetif.getAddrType ip = .global) = true ∧
      ips.foldl (fun s ip => s.ipEventGotIp6 Pcp.lwipNetif "st1" ip) {} ≠ State.modify {} .sta
        fun interface => { interface with ip6.global := listed ips.eraseDups } := by
  refine ⟨by decide, fun h => ?_⟩
  have hthird := congrFun (congrArg (fun s => (s.netInterfaces .sta).ip6.global) h) 2
  exact absurd hthird (by decide)

end Events

end Wifi
