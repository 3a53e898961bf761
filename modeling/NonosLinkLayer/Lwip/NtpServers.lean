import NonosLinkLayer.Lwip.ServerSlots
import NonosLinkLayer.Base.Transitions
import NonosLinkLayer.Base.Turns

namespace NonosLinkLayer.NtpServers
open ServerSlots SharedSlots Transitions Turns

-- The loop of both functions. The slots are as many as SNTP_MAX_SERVERS.
def serversLoop (family : Family) (num : UInt8) (servers : List IpAddr) : Nat → Slots → UInt8 → UInt8 → Option Slots
  | 0,_,_,_ => none
  | turns+1,s,i,newidx =>
    if i.toNat < s.length then
      if family.free (getserver s i) then
        if newidx < num then do
          let addr ← servers[newidx.toNat]?
          serversLoop family num servers turns (setserver s i (some addr)) (i + 1) (newidx + 1)
        else serversLoop family num servers turns (setserver s i none) (i + 1) newidx
      else serversLoop family num servers turns s (i + 1) newidx
    else some s

def dhcpSetNtpServers (sntpSetServersFromDhcp : Bool) (num : UInt8) (servers : List UInt32) (turns : Nat) (s : Slots) :
    Option Slots :=
  if sntpSetServersFromDhcp && num != 0 then serversLoop .v4 num (servers.map .v4) turns s 0 0 else some s

def dhcp6SetNtpServers (sntpSetServersFromDhcp : Bool) (numNtpServers : UInt8) (ntpServerAddrs : List IpAddr)
    (turns : Nat) (s : Slots) : Option Slots :=
  if sntpSetServersFromDhcp && numNtpServers != 0 then serversLoop .v6 numNtpServers ntpServerAddrs turns s 0 0
  else some s

inductive Call where
  | dhcp (servers : List UInt32)
  | dhcp6 (ntpServerAddrs : List IpAddr)

namespace Call

def family : Call → Family
  | .dhcp _ => .v4
  | .dhcp6 _ => .v6

def given : Call → List IpAddr
  | .dhcp servers => servers.map .v4
  | .dhcp6 ntpServerAddrs => ntpServerAddrs

structure Proper (call : Call) : Prop where
  nonempty : call.given ≠ []
  short : call.given.length < 256
  own : ∀ addr ∈ call.given, call.family.holds addr = true

def perform (turns : Nat) (s : Slots) : Call → Option Slots
  | .dhcp servers => dhcpSetNtpServers true (UInt8.ofNat servers.length) servers turns s
  | .dhcp6 ntpServerAddrs => dhcp6SetNtpServers true (UInt8.ofNat ntpServerAddrs.length) ntpServerAddrs turns s

end Call

structure Step (s : Slots) (call : Call) (next : Slots) : Prop where
  proper : call.Proper
  returns : Ends (fun turns => call.perform turns s) next

def lastGiven (family : Family) (past : List Call) : List IpAddr :=
  past.foldl (fun last call => if call.family = family then call.given else last) []

variable {s next : Slots} {family : Family} {num i newidx : UInt8} {addrs : List IpAddr} {turns slots : Nat}
  {call : Call} {past : List Call}

theorem serversLoop_untouched (result : serversLoop family num addrs turns s i newidx = some next) :
    Untouched family.other s next := by
  induction turns generalizing s i newidx with
  | zero => cases result
  | succ turns ih =>
    simp only [serversLoop] at result
    split at result
    · split at result
      · rename_i here
        split at result
        · obtain ⟨addr,_,later⟩ := Option.bind_eq_some_iff.mp result
          exact (Untouched.set (some addr) here).trans (ih later)
        · exact (Untouched.set none here).trans (ih result)
      · exact ih result
    · cases result
      exact .refl _ _

theorem serversLoop_endless (many : 256 ≤ s.length) : serversLoop family num addrs turns s i newidx = none := by
  induction turns generalizing s i newidx with
  | zero => rfl
  | succ turns ih =>
    have within : i.toNat < s.length := Nat.lt_of_lt_of_le i.toNat_lt many
    simp only [serversLoop,if_pos within]
    split
    · split
      · cases addrs[newidx.toNat]? with
        | none => rfl
        | some addr => exact ih (by simpa using many)
      · exact ih (by simpa using many)
    · exact ih many

theorem serversLoop_fill (done rest : Slots) (few : done.length + rest.length < 256) (place : done.length = i.toNat)
    (all : num.toNat = addrs.length) (taken : newidx.toNat ≤ num.toNat) (enough : rest.length < turns) :
    serversLoop family num addrs turns (done ++ rest) i newidx =
      some (done ++ fill family.free (fun _ => ipAddrAny) rest (addrs.drop newidx.toNat)) := by
  induction rest generalizing done i newidx turns with
  | nil =>
    obtain ⟨turns,rfl⟩ := Nat.exists_eq_succ_of_ne_zero (Nat.ne_zero_of_lt enough)
    simp [serversLoop,place]
  | cons slot rest ih =>
    obtain ⟨turns,rfl⟩ := Nat.exists_eq_succ_of_ne_zero (Nat.ne_zero_of_lt enough)
    rw [List.length_cons] at few enough
    have within : i.toNat < (done ++ slot :: rest).length := by simp [place]
    have step : (i + 1).toNat = i.toNat + 1 := succ_toNat (by omega)
    have onward (written : IpAddr) : (done ++ [written]).length = (i + 1).toNat := by simp [step,place]
    simp only [serversLoop,if_pos within,getserver_at place]
    cases here : family.free slot with
    | false =>
      have later := ih (done ++ [slot]) (by simp; omega) (onward slot) taken (Nat.lt_of_succ_lt_succ enough)
      rw [if_neg (by decide),List.append_cons,later,fill_kept here,List.append_assoc,List.singleton_append]
    | true =>
      rw [if_pos rfl,fill_free here]
      by_cases more : newidx < num
      · have inside : newidx.toNat < addrs.length := all ▸ UInt8.lt_iff_toNat_lt.mp more
        have counted : (newidx + 1).toNat = newidx.toNat + 1 := succ_toNat (by have := num.toNat_lt; omega)
        have later := ih (done ++ [addrs[newidx.toNat]]) (by simp; omega) (onward _) (by omega : (newidx + 1).toNat ≤ num.toNat)
          (Nat.lt_of_succ_lt_succ enough)
        rw [if_pos more,List.getElem?_eq_getElem inside,List.drop_eq_getElem_cons inside]
        simp only [Option.bind_eq_bind,Option.bind_some]
        rw [setserver_at place,Option.getD_some,later,counted,List.append_assoc]
        rfl
      · have used : addrs.drop newidx.toNat = [] := by
          apply List.drop_eq_nil_of_le
          rw [UInt8.lt_iff_toNat_lt] at more
          omega
        have later := ih (done ++ [ipAddrAny]) (by simp; omega) (onward ipAddrAny) taken (Nat.lt_of_succ_lt_succ enough)
        rw [if_neg more,setserver_at place,Option.getD_none,later,used,List.append_assoc]
        rfl

namespace Call

theorem Proper.perform (proper : call.Proper) (turns : Nat) (s : Slots) : call.perform turns s =
    serversLoop call.family (UInt8.ofNat call.given.length) call.given turns s 0 0 := by
  have counted : UInt8.ofNat call.given.length ≠ 0 := by
    intro zero
    have same := congrArg UInt8.toNat zero
    rw [UInt8.toNat_ofNat_of_lt' proper.short] at same
    exact proper.nonempty (List.length_eq_zero_iff.mp same)
  cases call with
  | dhcp servers =>
    simp only [given,List.length_map] at counted
    simp [Call.perform,dhcpSetNtpServers,family,given,counted]
  | dhcp6 ntpServerAddrs =>
    simp only [given] at counted
    simp [Call.perform,dhcp6SetNtpServers,family,given,counted]

end Call

theorem Step.untouched (step : Step s call next) : Untouched call.family.other s next := by
  obtain ⟨turns,result⟩ := step.returns.exists
  exact serversLoop_untouched ((step.proper.perform turns s).symm.trans result)

theorem perform_fill (proper : call.Proper) (few : s.length < 256) :
    Ends (fun turns => call.perform turns s) (fill call.family.free (fun _ => ipAddrAny) s call.given) := by
  refine Ends.enough fun turns (enough : s.length < turns) => ?_
  have counted : (UInt8.ofNat call.given.length).toNat = call.given.length := UInt8.toNat_ofNat_of_lt' proper.short
  rw [proper.perform]
  exact serversLoop_fill [] s (by simpa using few) rfl counted (Nat.zero_le _) enough

theorem Step.fill (step : Step s call next) :
    s.length < 256 ∧ next = fill call.family.free (fun _ => ipAddrAny) s call.given := by
  have few : s.length < 256 := by
    by_contra many
    obtain ⟨turns,result⟩ := step.returns.exists
    have none_ := (step.proper.perform turns s).trans (serversLoop_endless (Nat.le_of_not_lt many))
    cases none_.symm.trans result
  exact ⟨few,step.returns.unique (perform_fill step.proper few)⟩

theorem Step.own (step : Step s call next) : servers call.family next <+: call.given := by
  have cleared : ((((s.filter call.family.free).drop call.given.length).map fun _ => ipAddrAny).filter call.family.holds) = [] := by
    refine List.filter_eq_nil_iff.mpr fun a member => ?_
    obtain ⟨_,_,rfl⟩ := List.mem_map.mp member
    rw [Family.any_holds _ rfl]
    decide
  rw [step.fill.2,servers,filter_fill step.proper.own call.family.holds_free,cleared,List.append_nil]
  exact List.take_prefix _ _

theorem Step.other (step : Step s call next) : servers call.family.other next = servers call.family.other s := by
  rw [step.fill.2]
  exact filter_fill_other call.family.free_other (fun addr member => call.family.holds_other (step.proper.own addr member))
    fun _ _ => Family.any_holds _ rfl

theorem lastGiven_concat (family : Family) (past : List Call) (call : Call) : lastGiven family (past ++ [call]) =
    if call.family = family then call.given else lastGiven family past := by
  simp [lastGiven]

theorem step_given (step : Step s call next) (family : Family) (before : servers family s <+: lastGiven family past) :
    servers family next <+: lastGiven family (past ++ [call]) := by
  rw [lastGiven_concat]
  by_cases own : call.family = family
  · rw [if_pos own,← own]
    exact step.own
  · have foreign : call.family.other = family := by cases call <;> cases family <;> simp_all [Call.family,Family.other]
    have kept := step.other
    rw [foreign] at kept
    rw [if_neg own,kept]
    exact before

theorem length_kept (path : Runs Step (noServers slots) past s) : s.length = slots := by
  refine path.keeps (I:=fun s => s.length = slots) (by simp [noServers]) fun same step => ?_
  rw [step.fill.2,length_fill,same]

-- What DHCPv4 and DHCPv6 have given stands side by side, whatever the order of their calls.
theorem ntp_servers_coexist (path : Runs Step (noServers slots) past s) :
    (∀ family, servers family s <+: lastGiven family past) ∧
      (∀ call next, Step s call next → Untouched call.family.other s next) ∧
      (slots < 256 → ∀ call : Call, call.Proper → ∃ next, Step s call next) := by
  refine ⟨fun family => ?_,fun call next step => step.untouched,fun few call proper => ?_⟩
  · refine path.records (I:=fun past s => servers family s <+: lastGiven family past) ?_ fun _ before step => ?_
    · rw [servers_noServers]
      exact List.nil_prefix
    · exact step_given step family before
  · have length := length_kept path
    exact ⟨_,proper,perform_fill proper (by omega)⟩

def site : IpAddr := .v6 ⟨List.replicate 16 1,0,List.length_replicate⟩

theorem two_proper : (Call.dhcp [1]).Proper ∧ (Call.dhcp6 [site]).Proper :=
  ⟨⟨by decide,by decide,by decide⟩,⟨by decide,by decide,by decide⟩⟩

theorem two_given : Runs Step (noServers 2) [.dhcp [1],.dhcp6 [site]] [.v4 1,site] :=
  (Runs.single ⟨two_proper.1,.late 3 fun _ => rfl⟩).step ⟨two_proper.2,.late 3 fun _ => rfl⟩

theorem two_coexist : servers .v4 [.v4 1,site] <+: [.v4 1] ∧ servers .v6 [.v4 1,site] <+: [site] ∧
    (∀ call next, Step [.v4 1,site] call next → Untouched call.family.other [.v4 1,site] next) ∧
      ∃ next, Step [.v4 1,site] (.dhcp [1]) next :=
  ⟨(ntp_servers_coexist two_given).1 .v4,(ntp_servers_coexist two_given).1 .v6,(ntp_servers_coexist two_given).2.1,
    (ntp_servers_coexist two_given).2.2 (by decide) _ two_proper.1⟩

end NonosLinkLayer.NtpServers
