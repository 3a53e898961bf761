import NonosLinkLayer.Espconn.Udp

namespace NonosLinkLayer.Espconn
open Pieces Transitions Turns

structure UdpPayload where
  data : List UInt8
  some : data ≠ []
  small : data.length < 65536

def UdpPayload.length (p : UdpPayload) : UInt16 := UInt16.ofNat p.data.length

inductive UdpEvent where
  | redirect (ip : UInt32) (port : Int)
  | sent (p : UdpPayload)
  | sendto (p : UdpPayload)

structure UdpStack.BothUp (L : UdpStack) : Prop where
  opmode : L.opmode = espconnApSta
  interface : L.defaultInterface = espconnApSta
  present : L.present .sta = true ∧ L.present .ap = true
  up : L.up .sta = true ∧ L.up .ap = true

def UdpStack.broadcast (L : UdpStack) (addr : UInt32) : Bool := L.isBroadcast addr .sta && L.isBroadcast addr .ap

theorem UdpStack.BothUp.duplicates {L : UdpStack} (both : L.BothUp) (addr : UInt32) : L.duplicates addr = L.broadcast addr := by
  unfold UdpStack.duplicates UdpStack.broadcast
  rw [both.opmode,both.interface,both.present.1,both.present.2,both.up.1,both.up.2]
  simp

namespace UdpMsg

def espconnSent (L : UdpStack) (turns : Nat) (p : UdpPayload) (s : UdpMsg) : Option (UdpMsg × Int) :=
  espconnUdpSent L turns p.data p.length {s with state := .write}
def espconnSendto (L : UdpStack) (turns : Nat) (p : UdpPayload) (s : UdpMsg) : Option (UdpMsg × Int) :=
  espconnUdpSendto L turns p.data p.length s

def perform (L : UdpStack) (turns : Nat) (s : UdpMsg) : UdpEvent → Option UdpMsg
  | .redirect ip port => some {s with remoteIp := ip,remotePort := port}
  | .sent p => (s.espconnSent L turns p).map Prod.fst
  | .sendto p => (s.espconnSendto L turns p).map Prod.fst

def Step (L : UdpStack) (s : UdpMsg) (event : UdpEvent) (next : UdpMsg) : Prop := Ends (fun turns => s.perform L turns event) next

-- What a call should come to: its datagrams go out on both interfaces if and only if the
-- espconn's remote_ip is a broadcast address of both, whichever of the two functions is
-- called, and netif_default is left as it was.
structure Mirrors (L : UdpStack) (s : UdpMsg) (p : UdpPayload) (next : UdpMsg) : Prop where
  both : ∃ n, next.sent = s.sent ++ (List.range n).flatMap (fun j => s.emits (L.broadcast s.remoteIp) (piece 1472 p.data j)) ∧
    ((∀ i, s.allocs ≤ i → i < next.allocs → L.pbufAlloc i = true) → n = pieces 1472 p.data.length)
  same : ∃ one two, Ends (fun turns => (s.espconnSent L turns p).map Prod.fst) one ∧
    Ends (fun turns => (s.espconnSendto L turns p).map Prod.fst) two ∧ one.sent = two.sent
  restored : next.netifDefault = s.netifDefault

def Follows (L : UdpStack) (s : UdpMsg) : UdpEvent → UdpMsg → Prop
  | .redirect _ _,_ => True
  | .sent p,next => Mirrors L s p next
  | .sendto p,next => Mirrors L s p next

-- The first pbuf_alloc fails; or the address in the pcb is a broadcast address of both
-- just as the espconn's is, and if so, netif_default is the AP or the copy finds no memory.
def Agrees (L : UdpStack) (s : UdpMsg) : UdpEvent → Prop
  | .redirect _ _ => True
  | _ => L.pbufAlloc s.allocs = true → L.broadcast s.pcbIp = L.broadcast s.remoteIp ∧
      (L.broadcast s.remoteIp = true → L.pbufAlloc (s.allocs + 1) = true → s.netifDefault = some .ap)

section Calls
variable {L : UdpStack} {opt : SendOpt} {s next : UdpMsg} {p : UdpPayload} {n m : Nat}

theorem length_toNat (p : UdpPayload) : p.data.length = p.length.toNat := by
  unfold UdpPayload.length
  rw [UInt16.toNat_ofNat',Nat.mod_eq_of_lt p.small]

theorem length_some (p : UdpPayload) : p.length ≠ 0 := by
  intro none
  have length := length_toNat p
  rw [none] at length
  exact p.some (List.length_eq_zero_iff.mp length)

theorem emits_apart {f : Nat → List UInt8} (same : (List.range m).flatMap (fun j => s.emits true (f j)) =
    (List.range n).flatMap fun j => s.emits false (f j)) : m = 0 ∧ n = 0 := by
  have once (d : Datagram) (member : d ∈ (List.range n).flatMap fun j => s.emits false (f j)) : d.netif = s.netifDefault := by
    obtain ⟨j,_,emitted⟩ := List.mem_flatMap.mp member
    cases List.mem_singleton.mp emitted
    rfl
  cases m with
  | zero =>
    refine ⟨rfl,?_⟩
    cases n with
    | zero => rfl
    | succ n =>
      rw [List.range_succ_eq_map] at same
      cases same
  | succ m =>
    have sta : (⟨some .sta,s.remoteIp,s.remotePort16,f 0⟩ : Datagram) ∈ (List.range (m + 1)).flatMap fun j => s.emits true (f j) :=
      List.mem_flatMap.mpr ⟨0,by simp,by simp [emits]⟩
    have ap : (⟨some .ap,s.remoteIp,s.remotePort16,f 0⟩ : Datagram) ∈ (List.range (m + 1)).flatMap fun j => s.emits true (f j) :=
      List.mem_flatMap.mpr ⟨0,by simp,by simp [emits]⟩
    rw [same] at sta ap
    cases (once _ sta).trans (once _ ap).symm

structure Called (L : UdpStack) (s : UdpMsg) (p : UdpPayload) (twice : Bool) (next : UdpMsg) (m : Nat) : Prop where
  sent : next.sent = s.sent ++ (List.range m).flatMap fun j => s.emits twice (piece 1472 p.data j)
  all : (∀ i, s.allocs ≤ i → i < next.allocs → L.pbufAlloc i = true) → m = pieces 1472 p.data.length
  netif : next.netifDefault = if twice = true ∧ 0 < m then some .ap else s.netifDefault
  reached : m ≤ pieces 1472 p.data.length
  going : ∀ j < m, goes L twice (s.allocs + width twice * j) = true
  stuck : m < pieces 1472 p.data.length → goes L twice (s.allocs + width twice * m) = false

theorem Course.call (course : Course L opt s p.data (pieces 1472 p.data.length) next result m) :
    Called L s p (s.twice L opt) next m := by
  refine ⟨course.sent,fun all => ?_,course.netif,course.reached,course.going,course.stuck⟩
  refine Nat.le_antisymm course.reached (Nat.not_lt.mp fun short => ?_)
  obtain ⟨i,after,before,failed⟩ := course.short short
  rw [all i after before] at failed
  cases failed

theorem Called.begins {twice : Bool} (called : Called L s p twice next m) : 0 < m ↔ goes L twice s.allocs = true := by
  constructor
  · intro begun
    simpa using called.going 0 begun
  · intro going
    have covered := pieces_covers (by decide : 0 < 1472) p.data.length
    have some := List.length_pos_iff.mpr p.some
    refine Nat.pos_of_ne_zero fun none => ?_
    subst none
    have stuck := called.stuck (Nat.pos_of_ne_zero fun none => by rw [none] at covered; omega)
    rw [Nat.mul_zero,Nat.add_zero,going] at stuck
    cases stuck

theorem Called.le {twice : Bool} (one : Called L s p twice next m) (two : Called L s p twice other n) : m ≤ n := by
  refine Nat.not_lt.mp fun further => ?_
  have stuck := two.stuck (Nat.lt_of_lt_of_le further one.reached)
  rw [one.going n further] at stuck
  cases stuck

theorem transmit_ends (opt : SendOpt) (s : UdpMsg) (p : UdpPayload) : ∃ next m,
    Ends (fun turns => (transmit L opt turns p.data p.length s).map Prod.fst) next ∧ Called L s p (s.twice L opt) next m := by
  obtain ⟨next,result,m,ran,course⟩ := transmit_course (L:=L) (s:=s) opt (length_toNat p) (length_some p) rfl
  exact ⟨next,m,(Ends.enough ran).map Prod.fst,course.call⟩

theorem sent_ends (both : L.BothUp) (s : UdpMsg) (p : UdpPayload) : ∃ next m,
    Ends (fun turns => (s.espconnSent L turns p).map Prod.fst) next ∧ Called L s p (L.broadcast s.remoteIp) next m := by
  obtain ⟨next,m,ends,called⟩ := transmit_ends (L:=L) .send {s with state := .write} p
  refine ⟨next,m,ends,?_⟩
  rw [←both.duplicates]
  exact ⟨called.sent,called.all,called.netif,called.reached,called.going,called.stuck⟩

theorem sendto_ends (both : L.BothUp) (s : UdpMsg) (p : UdpPayload) : ∃ next m,
    Ends (fun turns => (s.espconnSendto L turns p).map Prod.fst) next ∧ Called L s p (L.broadcast s.pcbIp) next m := by
  obtain ⟨next,m,ends,called⟩ := transmit_ends (L:=L) .sendto s p
  refine ⟨next,m,ends,?_⟩
  rw [←both.duplicates]
  exact called

theorem Called.nothing {twice : Bool} (called : Called L s p twice next m) (first : L.pbufAlloc s.allocs = false) :
    m = 0 ∧ next.sent = s.sent ∧ next.netifDefault = s.netifDefault := by
  obtain rfl : m = 0 := by
    refine Nat.eq_zero_of_not_pos fun begun => ?_
    have going := called.begins.mp begun
    simp [goes,first] at going
  exact ⟨rfl,by simpa using called.sent,by simpa using called.netif⟩

-- What was sent shows whether it went twice, if anything was.
theorem Called.alike {twice twice' : Bool} (one : Called L s p twice next m) (two : Called L s p twice' other n)
    (same : next.sent = other.sent) (first : L.pbufAlloc s.allocs = true) : twice' = twice := by
  rw [one.sent,two.sent,List.append_cancel_left_eq] at same
  cases twice with
  | false =>
    cases twice' with
    | false => rfl
    | true =>
      have begins := one.begins
      rw [(emits_apart same.symm).2] at begins
      simp [goes,first] at begins
  | true =>
    cases twice' with
    | false =>
      have begins := two.begins
      rw [(emits_apart same).2] at begins
      simp [goes,first] at begins
    | true => rfl

theorem Called.ap (called : Called L s p true next m) (first : L.pbufAlloc s.allocs = true)
    (second : L.pbufAlloc (s.allocs + 1) = true) : next.netifDefault = some .ap := by
  have begun : goes L true s.allocs = true := by simp [goes,first,second]
  have netif := called.netif
  rwa [if_pos ⟨rfl,called.begins.mpr begun⟩] at netif

theorem Called.restored {twice : Bool} (called : Called L s p twice next m) (first : L.pbufAlloc s.allocs = true)
    (ap : twice = true → L.pbufAlloc (s.allocs + 1) = true → s.netifDefault = some .ap) : next.netifDefault = s.netifDefault := by
  rw [called.netif]
  split_ifs with sent
  · have begun := called.begins.mp sent.2
    rw [sent.1] at begun
    exact (ap sent.1 (by simpa [goes,first] using begun)).symm
  · rfl

section Both
variable {one two : UdpMsg} (ends : Ends (fun turns => (s.espconnSent L turns p).map Prod.fst) one)
  (called : Called L s p (L.broadcast s.remoteIp) one m)
  (ends' : Ends (fun turns => (s.espconnSendto L turns p).map Prod.fst) two)
  (called' : Called L s p (L.broadcast s.pcbIp) two n)
include ends called ends' called'

theorem mirrors_failed (first : L.pbufAlloc s.allocs = false) (isNext : next = one ∨ next = two) : Mirrors L s p next := by
  have still {twice : Bool} {o : UdpMsg} {i : Nat} (given : Called L s p twice o i) (isNext : next = o) : Mirrors L s p next := by
    subst isNext
    obtain ⟨rfl,sent,netif⟩ := given.nothing first
    refine ⟨⟨0,by simpa using sent,given.all⟩,⟨one,two,ends,ends',?_⟩,netif⟩
    rw [(called.nothing first).2.1,(called'.nothing first).2.1]
  rcases isNext with isOne | isTwo
  · exact still called isOne
  · exact still called' isTwo

theorem mirrors_agreeing (first : L.pbufAlloc s.allocs = true) (agree : L.broadcast s.pcbIp = L.broadcast s.remoteIp)
    (ap : L.broadcast s.remoteIp = true → L.pbufAlloc (s.allocs + 1) = true → s.netifDefault = some .ap)
    (isNext : next = one ∨ next = two) : Mirrors L s p next := by
  rw [agree] at called'
  obtain rfl := Nat.le_antisymm (called.le called') (called'.le called)
  have same : one.sent = two.sent := called.sent.trans called'.sent.symm
  rcases isNext with rfl | rfl
  · exact ⟨⟨m,called.sent,called.all⟩,⟨_,two,ends,ends',same⟩,called.restored first ap⟩
  · exact ⟨⟨m,called'.sent,called'.all⟩,⟨one,_,ends,ends',same⟩,called'.restored first ap⟩

theorem mirrors_iff (isNext : next = one ∨ next = two) :
    Mirrors L s p next ↔ (L.pbufAlloc s.allocs = true → L.broadcast s.pcbIp = L.broadcast s.remoteIp ∧
      (L.broadcast s.remoteIp = true → L.pbufAlloc (s.allocs + 1) = true → s.netifDefault = some .ap)) := by
  constructor
  · rintro ⟨_,⟨one',two',isOne,isTwo,same⟩,restored⟩ first
    cases ends.unique isOne
    cases ends'.unique isTwo
    have agree := called.alike called' same first
    refine ⟨agree,fun broadcast second => ?_⟩
    rw [agree] at called'
    rw [broadcast] at called called'
    rcases isNext with rfl | rfl
    · exact restored.symm.trans (called.ap first second)
    · exact restored.symm.trans (called'.ap first second)
  · intro agrees
    cases first : L.pbufAlloc s.allocs with
    | true =>
      obtain ⟨agree,ap⟩ := agrees first
      exact mirrors_agreeing ends called ends' called' first agree ap isNext
    | false => exact mirrors_failed ends called ends' called' first isNext

end Both

theorem follows_iff (both : L.BothUp) (s : UdpMsg) (event : UdpEvent) :
    (∃ next, Step L s event next ∧ Follows L s event next) ↔ Agrees L s event := by
  cases event with
  | redirect ip port => exact iff_of_true ⟨_,.done _,trivial⟩ trivial
  | sent p =>
    obtain ⟨one,m,ends,called⟩ := sent_ends both s p
    obtain ⟨two,n,ends',called'⟩ := sendto_ends both s p
    refine Iff.trans ⟨?_,fun mirrors => ⟨one,ends,mirrors⟩⟩ (mirrors_iff ends called ends' called' (.inl rfl))
    rintro ⟨next,step,mirrors⟩
    cases ends.unique step
    exact mirrors
  | sendto p =>
    obtain ⟨one,m,ends,called⟩ := sent_ends both s p
    obtain ⟨two,n,ends',called'⟩ := sendto_ends both s p
    refine Iff.trans ⟨?_,fun mirrors => ⟨two,ends',mirrors⟩⟩ (mirrors_iff ends called ends' called' (.inr rfl))
    rintro ⟨next,step,mirrors⟩
    cases ends'.unique step
    exact mirrors

end Calls

-- Along any calls, with remote_ip changed between them in any way, each call follows the
-- destination if and only if before each of them the two addresses agree.
theorem calls_follow (L : UdpStack) (both : L.BothUp) (s : UdpMsg) (events : List UdpEvent) :
    EachMeets (Step L) (fun s event => ∃ next, Step L s event next ∧ Follows L s event next) s events ↔
      EachMeets (Step L) (Agrees L) s events :=
  eachMeets_congr (I:=fun _ => True) (fun _ _ => trivial) (fun s event _ => follows_iff both s event) trivial

def apSta : UdpStack where
  opmode := espconnApSta
  defaultInterface := espconnApSta
  present _ := true
  up _ := true
  isBroadcast addr netif := addr == 0xffffffff || addr == 0 ||
    (netif == .ap && addr == 0xff04a8c0) || (netif == .sta && addr == 0xff00000a)
  pbufAlloc _ := true
  udpSend _ := ⟨0,1,one_held⟩

theorem apSta_up : apSta.BothUp := ⟨rfl,rfl,⟨rfl,rfl⟩,rfl,rfl⟩

def hello : UdpPayload := ⟨[104,101,108,108,111],by decide,by decide⟩

-- What was sent to 255.255.255.255 before, with the AP as netif_default.
def announcing : UdpMsg := ⟨0xffffffff,5353,.connect,true,[],0,0,0xffffffff,0xe914,some .ap,0,0,[],0⟩

theorem announcing_follows : EachMeets (Step apSta) (fun s event => ∃ next, Step apSta s event next ∧ Follows apSta s event next)
    announcing [.sendto hello] :=
  (calls_follow apSta apSta_up announcing [.sendto hello]).mpr ⟨fun _ => ⟨rfl,fun _ _ => rfl⟩,fun _ _ => trivial⟩

-- A broadcast with espconn_sent, then a datagram to 192.168.4.2 with espconn_sendto: it
-- goes out on both interfaces.
theorem unicast_doubled : ¬ EachMeets (Step apSta) (fun s event => ∃ next, Step apSta s event next ∧ Follows apSta s event next)
    announcing [.sent hello,.redirect 0x0204a8c0 5353,.sendto hello] := by
  intro meets
  have agree := (eachMeets_congr (I:=fun _ => True) (fun _ _ => trivial) (fun s event _ => follows_iff apSta_up s event) trivial).mp meets
  have sent := agree.2 _ (.late 2 fun _ => rfl)
  have redirected := sent.2 _ (.done _)
  cases (redirected.1 rfl).1

end UdpMsg
end NonosLinkLayer.Espconn
