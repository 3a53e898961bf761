import NonosLinkLayer.Lwip.ServerSlots
import NonosLinkLayer.Base.ByteMemory
import NonosLinkLayer.Base.Transitions
import NonosLinkLayer.Base.Turns

namespace NonosLinkLayer.DnsServers
open ServerSlots SharedSlots Transitions Turns

def lwipHtonl (v : UInt32) : UInt32 := ByteMemory.swap32 v

-- The options are the values from DHCP_OPTION_IDX_DNS_SERVER on, as far as they are given.
def dhcpOptionGiven (options : List UInt32) (idx : UInt8) : Bool := decide (idx.toNat < options.length)
def dhcpGetOptionValue (options : List UInt32) (idx : UInt8) : UInt32 := options.getD idx.toNat 0

def ackLoop (options : List UInt32) : Nat → Slots → UInt8 → UInt8 → Option Slots
  | 0,_,_,_ => none
  | turns+1,s,n,idx =>
    if n.toNat < s.length ∧ dhcpOptionGiven options idx = true then
      if Family.v4.free (getserver s n) then
        let dnsAddr := .v4 (lwipHtonl (dhcpGetOptionValue options idx))
        ackLoop options turns (setserver s n (some dnsAddr)) (n + 1) (idx + 1)
      else ackLoop options turns s (n + 1) idx
    else some s

def dhcpHandleAck (options : List UInt32) (turns : Nat) (s : Slots) : Option Slots := ackLoop options turns s 0 0

def pbufCopyPartial (p : List UInt8) (len offset : Nat) : List UInt8 := (p.drop offset).take len

-- `zone` is what ip6_addr_assign_zone gives an address.
def replyLoop (zone : List UInt8 → UInt8) (pMsgIn : List UInt8) (opEnd : Nat) : Nat → Slots → UInt8 → UInt16 → Option Slots
  | 0,_,_,_ => none
  | turns+1,s,n,idx =>
    if idx.toNat < opEnd ∧ n.toNat < s.length then
      if Family.v6.free (getserver s n) then
        let copied := pbufCopyPartial pMsgIn 16 idx.toNat
        if size : copied.length = 16 then
          replyLoop zone pMsgIn opEnd turns (setserver s n (some (.v6 ⟨copied,zone copied,size⟩))) (n + 1) (idx + 16)
        else some s
      else replyLoop zone pMsgIn opEnd turns s (n + 1) idx
    else some s

def dhcp6HandleConfigReply (zone : List UInt8 → UInt8) (pMsgIn : List UInt8) (opStart opLen : UInt16) (turns : Nat)
    (s : Slots) : Option Slots :=
  replyLoop zone pMsgIn (opStart.toNat + opLen.toNat) turns s 0 opStart

def addresses (zone : List UInt8 → UInt8) : Nat → List UInt8 → List IpAddr
  | 0,_ => []
  | k+1,bytes =>
    if size : (bytes.take 16).length = 16 then
      .v6 ⟨bytes.take 16,zone (bytes.take 16),size⟩ :: addresses zone k (bytes.drop 16)
    else []

-- A DHCPv4 ACK with the addresses it gives, as they are on the wire, and a DHCPv6
-- reply with the place of its option.
inductive Reply where
  | ack (dnsServers : List UInt32)
  | config (pMsgIn : List UInt8) (opStart opLen : UInt16)

namespace Reply

def family : Reply → Family
  | .ack _ => .v4
  | .config .. => .v6

def given (zone : List UInt8 → UInt8) : Reply → List IpAddr
  | .ack dnsServers => dnsServers.map .v4
  | .config pMsgIn opStart opLen => addresses zone (opLen.toNat / 16) (pMsgIn.drop opStart.toNat)

def WellFormed : Reply → Prop
  | .ack _ => True
  | .config pMsgIn opStart opLen =>
    opLen.toNat % 16 = 0 ∧ opStart.toNat + opLen.toNat ≤ pMsgIn.length ∧ pMsgIn.length < 65536

-- There are options for as many servers as there are slots, and none is left of an
-- earlier message.
def perform (zone : List UInt8 → UInt8) (turns : Nat) (s : Slots) : Reply → Option Slots
  | .ack dnsServers => dhcpHandleAck ((dnsServers.take s.length).map lwipHtonl) turns s
  | .config pMsgIn opStart opLen => dhcp6HandleConfigReply zone pMsgIn opStart opLen turns s

end Reply

structure Proper (zone : List UInt8 → UInt8) (reply : Reply) : Prop where
  wellFormed : reply.WellFormed
  nonempty : reply.given zone ≠ []
  own : ∀ addr ∈ reply.given zone, reply.family.holds addr = true

abbrev ProperReply (zone : List UInt8 → UInt8) := {reply : Reply // Proper zone reply}

def Step (zone : List UInt8 → UInt8) (s : Slots) (reply : ProperReply zone) (next : Slots) : Prop :=
  Ends (fun turns => reply.1.perform zone turns s) next

-- After a reply the addresses of its family are a front part of those it has given,
-- and those of the other family are where they were.
def Current (zone : List UInt8 → UInt8) (s : Slots) (reply : ProperReply zone) : Prop :=
  ∃ next, Step zone s reply next ∧ Untouched reply.1.family.other s next ∧
    servers reply.1.family next <+: reply.1.given zone

-- The counters do not go round before all that is given has a slot, which with
-- fewer than 256 slots they never do.
def Within (zone : List UInt8 → UInt8) (s : Slots) (reply : Reply) : Prop :=
  s.length < 256 ∨ ((reply.given zone).length ≤ (s.take 256).countP reply.family.free ∧
    (reply.family = .v4 → (reply.given zone).length < 256))

def Covers (zone : List UInt8 → UInt8) (s : Slots) (reply : ProperReply zone) : Prop :=
  (servers reply.1.family s).length ≤ (reply.1.given zone).length ∧ Within zone s reply.1

def placeLoop (family : Family) : Nat → Slots → UInt8 → List IpAddr → Option Slots
  | 0,_,_,_ => none
  | turns+1,s,n,given =>
    if n.toNat < s.length ∧ given ≠ [] then
      if family.free (getserver s n) then placeLoop family turns (setserver s n given.head?) (n + 1) given.tail
      else placeLoop family turns s (n + 1) given
    else some s

variable {zone : List UInt8 → UInt8} {s next : Slots} {family : Family} {given : List IpAddr} {turns slots k opEnd : Nat}
  {n idx : UInt8} {j : UInt16} {options : List UInt32} {p : List UInt8} {reply : ProperReply zone}

theorem placeLoop_untouched (result : placeLoop family turns s n given = some next) : Untouched family.other s next := by
  induction turns generalizing s n given with
  | zero => cases result
  | succ turns ih =>
    simp only [placeLoop] at result
    split at result
    · split at result
      · rename_i here
        exact (Untouched.set given.head? here).trans (ih result)
      · exact ih result
    · cases result
      exact .refl _ _

theorem within_small {done rest : Slots}
    (within : done.length + rest.length < 256 ∨ given.length ≤ (rest.take (256 - done.length)).countP family.free)
    (left : given ≠ []) : done.length < 256 := by
  rcases within with few | fits
  · omega
  · by_contra past
    rw [Nat.sub_eq_zero_of_le (Nat.le_of_not_lt past)] at fits
    exact left (List.length_eq_zero_iff.mp (Nat.le_zero.mp fits))

theorem counter_onward {done : Slots} (place : n = UInt8.ofNat done.length) (written : IpAddr) :
    n + 1 = UInt8.ofNat (done ++ [written]).length := by
  rw [List.length_append,List.length_singleton,place]
  exact (UInt8.ofNat_add _ _).symm

theorem placeLoop_fill (given : List IpAddr) (done rest : Slots) (place : n = UInt8.ofNat done.length) (enough : rest.length < turns)
    (within : done.length + rest.length < 256 ∨ given.length ≤ (rest.take (256 - done.length)).countP family.free) :
    placeLoop family turns (done ++ rest) n given = some (done ++ fill family.free id rest given) := by
  induction rest generalizing done n given turns with
  | nil =>
    obtain ⟨turns,rfl⟩ := Nat.exists_eq_succ_of_ne_zero (Nat.ne_zero_of_lt enough)
    have over_ : ¬ (n.toNat < (done ++ []).length ∧ given ≠ []) := by
      rintro ⟨inside,left⟩
      rw [place,UInt8.toNat_ofNat_of_lt' (within_small within left)] at inside
      simp at inside
    rw [placeLoop,if_neg over_,fill_nil]
  | cons slot rest ih =>
    obtain ⟨turns,rfl⟩ := Nat.exists_eq_succ_of_ne_zero (Nat.ne_zero_of_lt enough)
    rw [List.length_cons] at enough
    cases given with
    | nil => simp [placeLoop,fill_id]
    | cons addr given =>
      have small : done.length < 256 := within_small within (List.cons_ne_nil _ _)
      have here : done.length = n.toNat := by rw [place,UInt8.toNat_ofNat_of_lt' small]
      have room : 256 - done.length = (256 - (done.length + 1)) + 1 := by omega
      have inside : n.toNat < (done ++ slot :: rest).length ∧ addr :: given ≠ [] := by simp [← here]
      simp only [placeLoop,if_pos inside,getserver_at here]
      rw [room,List.take_succ_cons,List.length_cons,List.length_cons] at within
      cases free : family.free slot with
      | false =>
        have later := ih (addr :: given) (done ++ [slot]) (counter_onward place slot) (Nat.lt_of_succ_lt_succ enough) (by
          rw [List.countP_cons_of_neg (by simp [free])] at within
          rw [List.length_append,List.length_singleton,List.length_cons]
          exact within.imp_left (by omega))
        rw [if_neg (by decide),List.append_cons,later,fill_kept free,List.append_assoc,List.singleton_append]
      | true =>
        have later := ih given (done ++ [addr]) (counter_onward place addr) (Nat.lt_of_succ_lt_succ enough) (by
          rw [List.countP_cons_of_pos free] at within
          rw [List.length_append,List.length_singleton]
          exact within.imp (by omega) (by omega))
        rw [if_pos rfl,setserver_at here,List.head?_cons,Option.getD_some,List.tail_cons,later,fill_free free,List.append_assoc]
        rfl

theorem ackLoop_place (short : options.length < 256) (turns : Nat) (s : Slots) (n idx : UInt8) (taken : idx.toNat ≤ options.length) :
    ackLoop options turns s n idx =
      placeLoop .v4 turns s n ((options.drop idx.toNat).map fun value => .v4 (lwipHtonl value)) := by
  induction turns generalizing s n idx with
  | zero => rfl
  | succ turns ih =>
    by_cases more : idx.toNat < options.length
    · have counted : (idx + 1).toNat = idx.toNat + 1 := succ_toNat (by omega)
      have value : dhcpGetOptionValue options idx = options[idx.toNat] := by simp [dhcpGetOptionValue,more]
      have left : (options.drop idx.toNat).map (fun value => IpAddr.v4 (lwipHtonl value)) =
          .v4 (lwipHtonl options[idx.toNat]) :: (options.drop (idx.toNat + 1)).map fun value => .v4 (lwipHtonl value) := by
        rw [List.drop_eq_getElem_cons more,List.map_cons]
      have placed := ih (setserver s n (some (.v4 (lwipHtonl options[idx.toNat])))) (n + 1) (idx + 1) (by omega)
      have waits := ih s (n + 1) idx taken
      rw [counted] at placed
      rw [left] at waits ⊢
      simp only [ackLoop,placeLoop,dhcpOptionGiven,more,value,placed,waits,decide_true,and_true,ne_eq,reduceCtorEq,
        not_false_eq_true,List.head?_cons,List.tail_cons]
    · have used : options.drop idx.toNat = [] := List.drop_eq_nil_of_le (Nat.le_of_not_lt more)
      simp [ackLoop,placeLoop,dhcpOptionGiven,more,used]

theorem ackLoop_endless (long : 256 ≤ options.length) (many : 256 ≤ s.length) : ackLoop options turns s n idx = none := by
  induction turns generalizing s n idx with
  | zero => rfl
  | succ turns ih =>
    have on : n.toNat < s.length ∧ dhcpOptionGiven options idx = true :=
      ⟨Nat.lt_of_lt_of_le n.toNat_lt many,decide_eq_true (Nat.lt_of_lt_of_le idx.toNat_lt long)⟩
    simp only [ackLoop,if_pos on]
    split
    · exact ih (by simpa using many)
    · exact ih many

theorem replyLoop_place (ends : opEnd = j.toNat + 16 * k) (inside : opEnd ≤ p.length) (short : p.length < 65536) :
    replyLoop zone p opEnd turns s n j = placeLoop .v6 turns s n (addresses zone k (p.drop j.toNat)) := by
  induction turns generalizing s n j k with
  | zero => rfl
  | succ turns ih =>
    cases k with
    | zero => simp [replyLoop,placeLoop,addresses,ends]
    | succ k =>
      have size : ((p.drop j.toNat).take 16).length = 16 := by
        rw [List.length_take,List.length_drop]
        omega
      have before : j.toNat < opEnd := by omega
      have counted : (j + 16).toNat = j.toNat + 16 := by
        rw [UInt16.toNat_add]
        exact Nat.mod_eq_of_lt (by simp only [UInt16.reduceToNat]; omega)
      have placed (s : Slots) (n : UInt8) := ih (s:=s) (n:=n) (j:=j + 16) (k:=k) (by omega)
      have waits (s : Slots) (n : UInt8) := ih (s:=s) (n:=n) ends
      simp only [replyLoop,placeLoop,pbufCopyPartial,before,waits,placed,counted,addresses,dif_pos size]
      simp [List.drop_drop]

def placed (zone : List UInt8 → UInt8) (s : Slots) : Reply → List IpAddr
  | .ack dnsServers => (dnsServers.map .v4).take s.length
  | .config pMsgIn opStart opLen => (Reply.config pMsgIn opStart opLen).given zone

theorem perform_ack (dnsServers : List UInt32) (short : (dnsServers.take s.length).length < 256) (turns : Nat) :
    (Reply.ack dnsServers).perform zone turns s = placeLoop .v4 turns s 0 (placed zone s (.ack dnsServers)) := by
  have back : ((dnsServers.take s.length).map lwipHtonl).map (fun value => IpAddr.v4 (lwipHtonl value)) =
      placed zone s (.ack dnsServers) := by
    simp [placed,lwipHtonl,ByteMemory.swap32_swap32,List.map_take,Function.comp_def]
  rw [← back]
  exact ackLoop_place (by rwa [List.length_map]) turns s 0 0 (Nat.zero_le _)

theorem perform_config {pMsgIn : List UInt8} {opStart opLen : UInt16} (wellFormed : (Reply.config pMsgIn opStart opLen).WellFormed)
    (turns : Nat) (s : Slots) : (Reply.config pMsgIn opStart opLen).perform zone turns s =
      placeLoop .v6 turns s 0 (placed zone s (.config pMsgIn opStart opLen)) := by
  obtain ⟨whole,inside,short⟩ := wellFormed
  exact replyLoop_place (by omega) inside short

theorem perform_place (proper : Proper zone r) (few : s.length < 256 ∨ (r.family = .v4 → (r.given zone).length < 256))
    (turns : Nat) : r.perform zone turns s = placeLoop r.family turns s 0 (placed zone s r) := by
  cases r with
  | ack dnsServers =>
    refine perform_ack dnsServers ?_ turns
    rw [List.length_take]
    rcases few with slots | servers
    · omega
    · have short := servers rfl
      rw [Reply.given,List.length_map] at short
      omega
  | config pMsgIn opStart opLen => exact perform_config proper.wellFormed turns s

theorem Step.untouched (step : Step zone s reply next) : Untouched reply.1.family.other s next := by
  obtain ⟨turns,result⟩ := step.exists
  by_cases few : s.length < 256 ∨ (reply.1.family = .v4 → (reply.1.given zone).length < 256)
  · exact placeLoop_untouched ((perform_place reply.2 few turns).symm.trans result)
  · obtain ⟨r,proper⟩ := reply
    rw [not_or] at few
    cases r with
    | config => exact absurd (fun other => by cases other) few.2
    | ack dnsServers =>
      have long : 256 ≤ ((dnsServers.take s.length).map lwipHtonl).length := by
        simp only [Reply.given,Reply.family,List.length_map,List.length_take,forall_const] at few ⊢
        omega
      have never := (ackLoop_endless long (Nat.le_of_not_lt few.1)).symm.trans result
      cases never

theorem perform_fill (reply : ProperReply zone) (within : Within zone s reply.1) :
    Step zone s reply (fill reply.1.family.free id s (reply.1.given zone)) := by
  have all : fill reply.1.family.free id s (placed zone s reply.1) = fill reply.1.family.free id s (reply.1.given zone) := by
    obtain ⟨r,proper⟩ := reply
    cases r with
    | ack dnsServers => exact fill_take (Nat.le_refl _)
    | config => rfl
  have fewer : (placed zone s reply.1).length ≤ (reply.1.given zone).length := by
    obtain ⟨r,proper⟩ := reply
    cases r with
    | ack dnsServers => exact List.length_take_le' _ _
    | config => exact Nat.le_refl _
  refine Ends.enough fun turns (enough : s.length < turns) => ?_
  rw [perform_place reply.2 (within.imp_right And.right),← all]
  refine placeLoop_fill (placed zone s reply.1) [] s rfl enough (within.imp (fun slots => ?_) fun fits => ?_)
  · simpa using slots
  · exact Nat.le_trans fewer fits.1

theorem servers_fill (packed : Packed ipAddrIsany s) (own : ∀ addr ∈ given, family.holds addr = true) :
    servers family (fill family.free id s given) =
      given.take (s.countP family.free) ++ (servers family s).drop given.length := by
  unfold servers
  rw [filter_fill own family.holds_free,List.map_id,packed.filter_drop family.holds_used family.free_iff]

-- What is left of earlier replies is what there is more than is given now.
theorem servers_front (packed : Packed ipAddrIsany s) (own : ∀ addr ∈ given, family.holds addr = true) :
    servers family (fill family.free id s given) <+: given ↔ (servers family s).length ≤ given.length := by
  rw [servers_fill packed own]
  constructor
  · intro front
    by_contra more
    have slots : (servers family s).length ≤ s.countP family.free := by
      rw [servers,← List.countP_eq_length_filter]
      exact List.countP_mono_left fun addr _ => family.holds_free addr
    have length := front.length_le
    rw [List.length_append,List.length_take,List.length_drop] at length
    omega
  · intro covered
    rw [List.drop_eq_nil_of_le covered,List.append_nil]
    exact List.take_prefix _ _

theorem Covers.current (packed : Packed ipAddrIsany s) (covers : Covers zone s reply) : Current zone s reply :=
  have step := perform_fill reply covers.2
  ⟨_,step,step.untouched,(servers_front packed reply.2.own).mpr covers.1⟩

theorem current_iff (packed : Packed ipAddrIsany s) (few : s.length < 256) : Current zone s reply ↔ Covers zone s reply := by
  constructor
  · rintro ⟨next,step,_,front⟩
    rw [step.unique (perform_fill reply (.inl few))] at front
    exact ⟨(servers_front packed reply.2.own).mp front,.inl few⟩
  · exact Covers.current packed

theorem step_packed (packed : Packed ipAddrIsany s) (within : Within zone s reply.1) (step : Step zone s reply next) :
    Packed ipAddrIsany next ∧ next.length = s.length := by
  rw [step.unique (perform_fill reply within)]
  exact ⟨packed.fill (fun addr member => Family.holds_used _ addr (reply.2.own addr member)) (Family.any_free _),
    length_fill _ _⟩

-- In a run of replies each of which gives as many servers as there are of its
-- family, no server of an earlier reply is left; and with fewer than 256 slots just
-- a reply that gives fewer leaves one. The other family loses nothing in any case.
theorem dns_servers_current (zone : List UInt8 → UInt8) (slots : Nat) (replies : List (ProperReply zone)) :
    (EachMeets (Step zone) (Covers zone) (noServers slots) replies →
      EachMeets (Step zone) (Current zone) (noServers slots) replies) ∧
    (slots < 256 → (EachMeets (Step zone) (Current zone) (noServers slots) replies ↔
      EachMeets (Step zone) (Covers zone) (noServers slots) replies)) ∧
    ∀ s reply next, Step zone s reply next → Untouched reply.1.family.other s next := by
  have start : Packed ipAddrIsany (noServers slots) := packed_replicate _ _
  refine ⟨fun covers => ?_,fun few => ?_,fun s reply next step => step.untouched⟩
  · refine eachMeets_mono (I:=Packed ipAddrIsany) (fun packed covers step => ?_) (fun s reply packed => Covers.current packed)
      start covers
    exact (step_packed packed covers.2 step).1
  · refine eachMeets_congr (I:=fun s => Packed ipAddrIsany s ∧ s.length < 256) (fun held step => ?_)
      (fun s reply held => current_iff held.1 held.2) ⟨start,by simpa [noServers] using few⟩
    obtain ⟨packed,length⟩ := step_packed held.1 (.inl held.2) step
    exact ⟨packed,by rw [length]; exact held.2⟩

def two : ProperReply fun _ => 0 := ⟨.ack [0x0100000a,0x0200000a],⟨trivial,by decide,by decide⟩⟩
def one : ProperReply fun _ => 0 := ⟨.ack [0x0300000a],⟨trivial,by decide,by decide⟩⟩

theorem two_placed : Step (fun _ => 0) (noServers 2) two [.v4 0x0100000a,.v4 0x0200000a] := .late 3 fun _ => rfl

-- The second of two servers is left when one is given in their place.
theorem dns_server_left : ¬ ∀ (zone : List UInt8 → UInt8) (slots : Nat) (replies : List (ProperReply zone)),
    EachMeets (Step zone) (Current zone) (noServers slots) replies := by
  intro claimed
  obtain ⟨_,later⟩ := claimed (fun _ => 0) 2 [two,one]
  obtain ⟨current,_⟩ := later _ two_placed
  have packed : Packed ipAddrIsany [.v4 0x0100000a,.v4 0x0200000a] := by simp [Packed,ipAddrIsany]
  have covers := (current_iff packed (by decide)).mp current
  exact absurd covers.1 (by decide)

end NonosLinkLayer.DnsServers
