import NonosLinkLayer.Dhcps.Ageing
import NonosLinkLayer.Dhcps.Handshake
import NonosLinkLayer.Dhcps.Provider

namespace NonosLinkLayer.Dhcps
open ByteMemory

structure Renews (p : DhcpsPool) (m : Memory) (r : Reading) : Prop where
  cookie : read32 m optionsAt = magicCookie
  mine : chaddr m = p.mac
  shown : ciaddr m = p.ip
  request : r.type = dhcpRequest
  same : r.requested = none ∨ r.requested = some p.ip

instance (p : DhcpsPool) (m : Memory) (r : Reading) : Decidable (Renews p m r) :=
  decidable_of_iff (read32 m optionsAt = magicCookie ∧ chaddr m = p.mac ∧ ciaddr m = p.ip ∧ r.type = dhcpRequest ∧
      (r.requested = none ∨ r.requested = some p.ip))
    ⟨fun ⟨cookie,mine,shown,request,same⟩ => ⟨cookie,mine,shown,request,same⟩,
      fun ⟨cookie,mine,shown,request,same⟩ => ⟨cookie,mine,shown,request,same⟩⟩

abbrev Renewal (p : DhcpsPool) (heap : Memory) (packet : Pbuf) : Prop :=
  Renews p (copyMsg heap packet) (reading (copyMsg heap packet) packet.optionsLen)

-- What a call makes of a lease that nothing else touches: a tick makes it older,
-- and the last one ends it, and a renewal gives it the whole time again.
def DhcpsPool.passed (p : DhcpsPool) (t : Provider) : Call → Option DhcpsPool
  | .event .timer => if p.expires then none else some p.older
  | .datagram heap packet zalloc _ =>
    if zalloc = true ∧ Renewal p heap packet then some ⟨p.ip,p.mac,t.server.dhcpsLeaseTime,.dynamic,.online⟩ else some p
  | _ => some p

-- The calls that leave a lease alone: the server is not stopped, no tick has to
-- make room, the client sends nothing but renewals, and what the others are given
-- is no address that is leased already.
def Undisturbed (p : DhcpsPool) (t : Provider) : Call → Prop
  | .start _ given => given = true
  | .stop => False
  | .setting _ => True
  | .event .timer => (coarseLoop t.server.plist 0).2 < maxStationNum
  | .event (.update bssid ip) => bssid ≠ some p.mac ∧ Clear t.server (.update bssid ip)
  | .event (.leave bssid ip _) => ¬(bssid = some p.mac ∧ ip = some p.ip)
  | .event (.add macaddr) => Clear t.server (.add macaddr)
  | .datagram heap packet zalloc _ => zalloc = true → read32 (copyMsg heap packet) optionsAt = magicCookie →
    Renewal p heap packet ∨ chaddr (copyMsg heap packet) ≠ p.mac ∧
      Clear t.server (.update (some (chaddr (copyMsg heap packet))) (some (ciaddr (copyMsg heap packet))))

def Reply.view (r : Reply) : Memory := fun i => r.payload.getD i 0

structure Answers (m : Memory) (r : Reply) (answer : Answer) (addr : UInt32) : Prop where
  answer : r.answer = answer
  length : r.payload.length = dhcpsMsgSize
  op : r.view 0 = 2
  xid : ∀ i < 4, r.view (4+i) = m (4+i)
  yiaddr : yiaddr r.view = addr
  chaddr : ∀ i < 16, r.view (28+i) = m (28+i)

def Confirmed (p : DhcpsPool) (outcome : Outcome) : Call → Prop
  | .datagram heap packet zalloc pbufAlloc =>
    (zalloc = true → pbufAlloc = true → Renewal p heap packet →
      ∃ r, outcome = .reply (some r) ∧ Answers (copyMsg heap packet) r .ack p.ip) ∧
    (chaddr (copyMsg heap packet) ≠ p.mac → ∀ r, outcome = .reply (some r) → yiaddr r.view ≠ p.ip)
  | _ => True

structure Leased (p : DhcpsPool) (t : Provider) : Prop where
  phase : t.phase = .on
  single : Single t.server
  distinct : Distinct t.server
  wish : Wish p.ip
  member : p ∈ t.server.plist
  online : p.state = .online
  alive : p.leaseTimer ≠ 0
  lasting : t.server.dhcpsLeaseTime ≠ 0

-- As long as nothing disturbs it the lease is there as the calls so far have left
-- it, and when it has ended the client has none.
def AllLasting : DhcpsPool → Provider → List Call → Prop
  | p,t,[] => Leased p t
  | p,t,call :: rest => Leased p t ∧ (Undisturbed p t call → ∀ t' outcome, t.serve call = some (t',outcome) →
      Confirmed p outcome call ∧
      (p.passed t call = none → Unknown t'.server p.mac) ∧
      ∀ p', p.passed t call = some p' → AllLasting p' t' rest)

section Replies
variable {u : Setup} {d : Daemon} {m : Memory} {type : UInt8} {options : List UInt8} {i : Nat} {answer : Answer}

theorem sendMsg_kept (place : 4 ≤ i ∧ i < 8 ∨ 28 ≤ i ∧ i < 44) : sendMsg d m type options i = m i := by
  unfold sendMsg createMsg optionsAt
  dsimp only
  rw [write_apart (.inl (by omega))]
  iterate 11 rw [write_apart (by simp only [List.length_replicate,bytes32,bytes16,List.length_cons,List.length_nil]; omega)]

theorem sendMsg_op : sendMsg d m type options 0 = 2 := by
  unfold sendMsg createMsg optionsAt
  dsimp only
  iterate 11 rw [write_apart (.inl (by decide))]
  exact (write_spells m 0 [2,1,6,0]).1

theorem reply_view (small : i < dhcpsMsgSize) : (u.reply (answer,m)).view i = m i := by
  unfold Reply.view Setup.reply
  simp [List.getD_eq_getElem?_getD,small]

theorem reply_yiaddr : yiaddr (u.reply (answer,m)).view = yiaddr m :=
  read32_congr fun k small => reply_view (by unfold dhcpsMsgSize; omega)

theorem reply_answers (u : Setup) (d : Daemon) (m : Memory) (type : UInt8) (options : List UInt8) (answer : Answer) :
    Answers m (u.reply (answer,sendMsg d m type options)) answer d.clientAddress := by
  refine ⟨rfl,?_,?_,?_,?_,?_⟩
  · unfold Setup.reply
    rw [List.length_map,List.length_range]
  · rw [reply_view (by decide)]
    exact sendMsg_op
  · intro i small
    rw [reply_view (by unfold dhcpsMsgSize; omega)]
    exact sendMsg_kept (by omega)
  · rw [reply_yiaddr]
    exact sendMsg_yiaddr ..
  · intro i small
    rw [reply_view (by unfold dhcpsMsgSize; omega)]
    exact sendMsg_kept (by omega)

end Replies

section Steps
variable {s next : Server} {d : Daemon} {p q : DhcpsPool} {l : List DhcpsPool} {t t' : Provider} {outcome : Outcome}
  {m : Memory} {mac : Mac}

theorem coarse_kept (l : List DhcpsPool) (num : UInt8) :
    (coarseLoop l num).1 = (l.map DhcpsPool.tick).filter fun p => p.leaseTimer ≠ 0 := by
  induction l generalizing num with
  | nil => rfl
  | cons head rest ih =>
    unfold coarseLoop
    by_cases spent : head.tick.leaseTimer = 0
    · rw [if_pos spent,ih,List.map_cons,List.filter_cons_of_neg (by simpa using spent)]
    · rw [if_neg spent,List.map_cons,List.filter_cons_of_pos (by simpa using spent)]
      exact congrArg _ (ih _)

theorem tick_mac (p : DhcpsPool) : p.tick.mac = p.mac := by
  unfold DhcpsPool.tick
  split <;> rfl

theorem timer_passes (single : Single s) (member : p ∈ s.plist) (alive : p.leaseTimer ≠ 0)
    (room : (coarseLoop s.plist 0).2 < maxStationNum) (ran : dhcpsCoarseTmr s = some next) :
    next.dhcpsLeaseTime = s.dhcpsLeaseTime ∧ if p.expires then Unknown next p.mac else p.older ∈ next.plist := by
  have kept := coarse_kept s.plist 0
  unfold dhcpsCoarseTmr at ran
  dsimp only at ran
  rw [if_neg (UInt8.not_le.mpr room)] at ran
  cases ran
  refine ⟨rfl,?_⟩
  rw [kept]
  have started : 1 ≤ p.leaseTimer := by
    have positive := Nat.pos_of_ne_zero (mt (UInt32.toNat_inj (b:=0)).mp alive)
    exact UInt32.le_iff_toNat_le.mpr positive
  by_cases gone : p.expires
  · rw [if_pos gone]
    intro q left same
    obtain ⟨there,running⟩ := List.mem_filter.mp left
    obtain ⟨r,inside,rfl⟩ := List.mem_map.mp there
    have here : r = p := by
      rw [tick_mac] at same
      exact List.inj_on_of_nodup_map single inside member same
    rw [here,(tick_zero started).mpr gone] at running
    simp at running
  · rw [if_neg gone,←tick_older]
    have running := mt (tick_zero started).mp gone
    exact List.mem_filter.mpr ⟨List.mem_map_of_mem member,by simpa using running⟩

theorem older_alive (alive : p.leaseTimer ≠ 0) (stays : ¬ p.expires) : p.older.leaseTimer ≠ 0 := by
  unfold DhcpsPool.older
  unfold DhcpsPool.expires at stays
  cases type : p.type with
  | static => exact alive
  | dynamic =>
    intro zero
    have last : p.leaseTimer = 1 := by
      have sum := UInt32.sub_eq_iff_eq_add.mp zero
      rwa [UInt32.zero_add] at sum
    exact stays ⟨type,last⟩

theorem older_same (p : DhcpsPool) : p.older.ip = p.ip ∧ p.older.mac = p.mac ∧ p.older.state = p.state := by
  unfold DhcpsPool.older
  cases p.type <;> exact ⟨rfl,rfl,rfl⟩

theorem leave_keeps {ip : UInt32} {force : Bool} (other : ¬(p.mac = mac ∧ p.ip = ip)) (member : p ∈ l) :
    p ∈ leaveLoop mac ip force l := by
  induction l with
  | nil => cases member
  | cons head rest ih =>
    unfold leaveLoop
    split_ifs with hit goes
    · rcases List.mem_cons.mp member with rfl | behind
      · exact absurd hit other
      · exact behind
    · rcases List.mem_cons.mp member with rfl | behind
      · exact absurd hit other
      · exact List.mem_cons_of_mem _ behind
    · rcases List.mem_cons.mp member with rfl | behind
      · exact List.mem_cons_self
      · exact List.mem_cons_of_mem _ (ih behind)

theorem client_leave_keeps {bssid : Option Mac} {ip : Option UInt32} {force : Bool}
    (other : ¬(bssid = some p.mac ∧ ip = some p.ip)) (member : p ∈ s.plist) :
    p ∈ (wifiSoftapDhcpsClientLeave s bssid ip force).plist := by
  unfold wifiSoftapDhcpsClientLeave
  split
  · rename_i mac addr
    exact leave_keeps (fun both => other ⟨congrArg some both.1.symm,congrArg some both.2.symm⟩) member
  · exact member

theorem add_keeps (member : p ∈ s.plist) (macaddr : Mac) : p ∈ (wifiSoftapAddDhcpsLease s macaddr).1.plist := by
  unfold wifiSoftapAddDhcpsLease
  split
  · exact member
  · split_ifs
    · exact member
    · exact (insert_mem _ _).mpr (.inr member)

theorem update_keeps (single : Single s) (member : p ∈ s.plist) (online : p.state = .online) (other : p.mac ≠ mac)
    (ip : UInt32) : p ∈ (wifiSoftapDhcpsClientUpdate s (some mac) (some ip)).1.plist := by
  obtain ⟨plist,got,renew,ran,updated⟩ := update_updated single mac ip
  rw [ran]
  exact updated.keeps single member other online

theorem renewal_updates (single : Single s) (distinct : Distinct s) (wish : Wish p.ip) (member : p ∈ s.plist) :
    ∃ plist, wifiSoftapDhcpsClientUpdate s (some p.mac) (some p.ip) = ({s with plist := plist,renew := true},p.ip) ∧
      ⟨p.ip,p.mac,s.dhcpsLeaseTime,.dynamic,.online⟩ ∈ plist := by
  have only : ∀ {j : Nat} {q : DhcpsPool}, Holder s p.ip j q → q = p :=
    fun holder => List.inj_on_of_nodup_map distinct holder.member member holder.held
  obtain ⟨plist,got,renew,ran,updated⟩ := update_updated single p.mac p.ip
  generalize addr : p.ip = a at updated
  cases updated with
  | broadcast => exact absurd addr wish.2
  | full => exact absurd addr wish.1
  | moved => exact absurd addr wish.1
  | opened => exact absurd addr wish.1
  | taken _ holder other =>
    rw [←addr] at holder
    exact absurd (congrArg DhcpsPool.mac (only holder)) other
  | beyond _ unused => exact absurd addr (unused p member)
  | renewed _ holder mine =>
    rw [addr] at ran
    exact ⟨_,ran,holder.placed _⟩
  | takenOver _ here mine holder other =>
    rw [←addr] at holder
    exact absurd (congrArg DhcpsPool.mac (only holder)) other
  | inherited _ unknown => exact absurd rfl (unknown p member)
  | movedTo _ unused => exact absurd addr (unused p member)
  | openedAt _ unused => exact absurd addr (unused p member)

theorem parse_foreign (single : Single d.server) (distinct : Distinct d.server) (wish : Wish p.ip)
    (member : p ∈ d.server.plist) (online : p.state = .online) (other : chaddr m ≠ p.mac)
    (clear : Clear d.server (.update (some (chaddr m)) (some (ciaddr m)))) (cookie : read32 m optionsAt = magicCookie)
    (len : UInt16) :
    Single (parseMsg d m len).1.server ∧ Distinct (parseMsg d m len).1.server ∧ p ∈ (parseMsg d m len).1.server.plist ∧
      ∃ state, (parseMsg d m len).2 = some state ∧ (state ≠ .release → (parseMsg d m len).1.clientAddress ≠ p.ip) := by
  obtain ⟨single',distinct'⟩ := update_distinct single distinct (some (chaddr m)) (some (ciaddr m))
  have apart := distinct'.mpr clear
  have kept := update_keeps single member online other.symm (ciaddr m)
  obtain ⟨plist,got,renew,ran,updated⟩ := update_updated single (chaddr m) (ciaddr m)
  rw [ran] at single' apart kept
  have fresh : got ≠ p.ip := by
    intro same
    have given : got ≠ ipaddrAny := fun any => wish.1 (same.symm.trans any)
    obtain ⟨q,there,mine,ip,_⟩ := updated.leased given
    have here : q = p := List.inj_on_of_nodup_map apart there kept (ip.trans same)
    exact other (mine.symm.trans (congrArg DhcpsPool.mac here))
  unfold parseMsg
  rw [if_pos cookie]
  dsimp only
  rw [ran]
  dsimp only
  split_ifs with release
  · have after : Single {d.server with plist := leaveLoop (chaddr m) (ciaddr m) true plist,renew := renew} ∧
        Distinct {d.server with plist := leaveLoop (chaddr m) (ciaddr m) true plist,renew := renew} :=
      fewer_distinct single' apart (leave_owners ..)
    obtain ⟨single'',distinct''⟩ := after
    exact ⟨single'',distinct'',leave_keeps (fun both => other both.1.symm) kept,_,rfl,fun no => absurd release no⟩
  · exact ⟨single',apart,kept,_,rfl,fun _ => fresh⟩

theorem parse_renewal (single : Single d.server) (distinct : Distinct d.server) (wish : Wish p.ip)
    (member : p ∈ d.server.plist) {len : UInt16} (renews : Renews p m (reading m len.toInt16)) :
    ∃ plist, parseMsg d m len = (⟨{d.server with plist := plist,renew := true},p.ip⟩,some .ack) ∧
      (plist.map DhcpsPool.mac).Nodup ∧ (plist.map DhcpsPool.ip).Nodup ∧
      ⟨p.ip,p.mac,d.server.dhcpsLeaseTime,.dynamic,.online⟩ ∈ plist := by
  obtain ⟨plist,ran,renewed⟩ := renewal_updates single distinct wish member
  have clear : Clear d.server (.update (some p.mac) (some p.ip)) := by
    rintro (none | any)
    · cases none
    · exact absurd (Option.some.inj any) wish.1
  obtain ⟨single',distinct'⟩ := update_distinct single distinct (some p.mac) (some p.ip)
  have apart := distinct'.mpr clear
  rw [ran] at single' apart
  have acked : (reading m len.toInt16).answer p.ip true = .ack := by
    unfold Reading.answer
    rw [renews.request,if_neg (by decide),if_neg (by decide),if_neg (by decide)]
    rcases renews.same with nothing | same
    · rw [nothing]
      rfl
    · rw [same]
      exact if_pos rfl
  refine ⟨plist,?_,single',apart,renewed⟩
  unfold parseMsg
  rw [if_pos renews.cookie]
  dsimp only
  rw [renews.mine,renews.shown,ran]
  dsimp only
  rw [parseOptions_reading,acked]
  rfl

end Steps

section Lasting
variable {p p' : DhcpsPool} {t t' : Provider} {outcome : Outcome} {next : Server}

theorem Leased.same (leased : Leased p t) (phase : t'.phase = .on) (plist : t'.server.plist = t.server.plist)
    (lasting : t'.server.dhcpsLeaseTime ≠ 0) : Leased p t' := by
  refine ⟨phase,?_,?_,leased.wish,plist ▸ leased.member,leased.online,leased.alive,lasting⟩
  · unfold Single
    rw [plist]
    exact leased.single
  · unfold Distinct
    rw [plist]
    exact leased.distinct

theorem Leased.event (leased : Leased p t) {event : Event} (clear : Clear t.server event)
    (ran : perform t.server event = some next) (member : p' ∈ next.plist) (ip : p'.ip = p.ip) (online : p'.state = p.state)
    (alive : p'.leaseTimer ≠ 0) : Leased p' {t with server := next} := by
  obtain ⟨next',went,single,distinct⟩ := step_distinct leased.single leased.distinct event
  cases ran.symm.trans went
  refine ⟨leased.phase,single,distinct.mpr clear,ip ▸ leased.wish,member,online.trans leased.online,alive,?_⟩
  rw [(perform_range event ran).2]
  exact leased.lasting

theorem configure_lasting {v v' : Variables} (lasting : v.dhcpsLeaseTime ≠ 0) (setting : Setting)
    (ran : v.configure setting = some (v',outcome)) : v'.dhcpsLeaseTime ≠ 0 := by
  cases setting with
  | setLeaseTime opmode status minute =>
    rw [←congrArg (fun r => r.1.dhcpsLeaseTime) (Option.some.inj ran)]
    change (wifiSoftapSetDhcpsLeaseTime ..).1 ≠ 0
    unfold wifiSoftapSetDhcpsLeaseTime
    split_ifs with mode status zero
    · exact lasting
    · exact lasting
    · exact lasting
    · exact zero
  | resetLeaseTime opmode status =>
    rw [←congrArg (fun r => r.1.dhcpsLeaseTime) (Option.some.inj ran)]
    change (wifiSoftapResetDhcpsLeaseTime ..).1 ≠ 0
    unfold wifiSoftapResetDhcpsLeaseTime
    split_ifs
    · exact lasting
    · exact lasting
    · exact (by decide : dhcpsLeaseTimeDef ≠ 0)
  | setOfferOption status level optarg =>
    obtain ⟨⟨offer,ok⟩,_,same⟩ := Option.bind_eq_some_iff.mp ran
    cases same
    exact lasting
  | _ =>
    cases ran
    exact lasting

theorem event_lasts (leased : Leased p t) (event : Event) (undisturbed : Undisturbed p t (.event event))
    (ran : perform t.server event = some next) :
    (p.passed t (.event event) = none → Unknown next p.mac) ∧
    ∀ p', p.passed t (.event event) = some p' → Leased p' {t with server := next} := by
  have kept : ∀ {event}, Clear t.server event → perform t.server event = some next → p ∈ next.plist →
      Leased p {t with server := next} :=
    fun clear ran member => leased.event clear ran member rfl rfl leased.alive
  cases event with
  | timer =>
    obtain ⟨_,passed⟩ := timer_passes leased.single leased.member leased.alive undisturbed ran
    unfold DhcpsPool.passed
    by_cases gone : p.expires
    · rw [if_pos gone] at passed
      simp only [if_pos gone]
      exact ⟨fun _ => passed,fun _ same => nomatch same⟩
    · rw [if_neg gone] at passed
      simp only [if_neg gone]
      obtain ⟨ip,_,state⟩ := older_same p
      refine ⟨fun none => (nomatch none),fun p' same => ?_⟩
      cases same
      have clear : Clear t.server .timer := trivial
      exact leased.event clear ran passed ip state (older_alive leased.alive gone)
  | update bssid ip =>
    refine ⟨fun none => (nomatch none),fun p' same => ?_⟩
    cases same
    obtain ⟨other,clear⟩ := undisturbed
    refine kept clear ran ?_
    cases ran
    cases bssid with
    | none => exact leased.member
    | some mac =>
      have foreign : p.mac ≠ mac := fun same => other (congrArg some same.symm)
      cases ip with
      | none => exact update_keeps leased.single leased.member leased.online foreign ipaddrAny
      | some ip => exact update_keeps leased.single leased.member leased.online foreign ip
  | leave bssid ip force =>
    refine ⟨fun none => (nomatch none),fun p' same => ?_⟩
    cases same
    have clear : Clear t.server (.leave bssid ip force) := trivial
    refine kept clear ran ?_
    cases ran
    exact client_leave_keeps undisturbed leased.member
  | add macaddr =>
    refine ⟨fun none => (nomatch none),fun p' same => ?_⟩
    cases same
    have clear : Clear t.server (.add macaddr) := undisturbed
    refine kept clear ran ?_
    cases ran
    exact add_keeps leased.member macaddr

theorem datagram_serve (on : t.phase = .on) {heap : Memory} {packet : Pbuf} {pbufAlloc : Bool}
    (answered : t.serve (.datagram heap packet true pbufAlloc) = some (t',outcome)) :
    let parsed := parseMsg ⟨t.server,t.setup.clientAddress⟩ (copyMsg heap packet) (packet.totLen.toInt16 - 240).toUInt16
    t'.phase = .on ∧ t'.server = parsed.1.server ∧ ∃ u : Setup, outcome = .reply
      (if pbufAlloc then (parsed.1.send t.setup.settings (copyMsg heap packet) parsed.2).map u.reply else none) := by
  unfold Provider.serve at answered
  dsimp only at answered
  rw [if_pos ⟨on,rfl⟩] at answered
  cases answered
  exact ⟨on,rfl,_,rfl⟩

theorem datagram_lasts (leased : Leased p t) (heap : Memory) (packet : Pbuf) (zalloc pbufAlloc : Bool)
    (undisturbed : Undisturbed p t (.datagram heap packet zalloc pbufAlloc))
    (answered : t.serve (.datagram heap packet zalloc pbufAlloc) = some (t',outcome)) :
    Confirmed p outcome (.datagram heap packet zalloc pbufAlloc) ∧
    ∃ p', p.passed t (.datagram heap packet zalloc pbufAlloc) = some p' ∧ Leased p' t' := by
  have length : (packet.totLen.toInt16 - 240).toUInt16.toInt16 = packet.optionsLen := Int16.toInt16_toUInt16 _
  have silent : t' = t → outcome = .reply none → ¬(zalloc = true ∧ Renewal p heap packet) →
      Confirmed p outcome (.datagram heap packet zalloc pbufAlloc) ∧
      ∃ p', p.passed t (.datagram heap packet zalloc pbufAlloc) = some p' ∧ Leased p' t' := by
    rintro rfl rfl no
    exact ⟨⟨fun here _ renews => absurd ⟨here,renews⟩ no,fun _ _ same => nomatch same⟩,p,if_neg no,leased⟩
  cases zalloc with
  | false =>
    have same : some (t,Outcome.reply none) = some (t',outcome) := by
      unfold Provider.serve at answered
      dsimp only at answered
      rwa [if_neg fun both => nomatch both.2] at answered
    cases same
    exact silent rfl rfl fun both => nomatch both.1
  | true =>
    obtain ⟨on,server,u,replied⟩ := datagram_serve leased.phase answered
    subst replied
    by_cases cookie : read32 (copyMsg heap packet) optionsAt = magicCookie
    · rcases undisturbed rfl cookie with renews | ⟨other,clear⟩
      · have read : Renews p (copyMsg heap packet)
            (reading (copyMsg heap packet) (packet.totLen.toInt16 - 240).toUInt16.toInt16) := by
          rw [length]
          exact renews
        obtain ⟨plist,parsed,single,distinct,member⟩ := parse_renewal (d:=⟨t.server,t.setup.clientAddress⟩)
          leased.single leased.distinct leased.wish leased.member read
        rw [parsed] at server ⊢
        refine ⟨⟨fun _ room _ => ?_,fun other => absurd renews.mine other⟩,_,if_pos ⟨rfl,renews⟩,?_⟩
        · rw [if_pos room]
          exact ⟨_,rfl,reply_answers u _ _ _ _ _⟩
        · refine ⟨on,?_,?_,leased.wish,?_,rfl,leased.lasting,?_⟩
          · rw [server]
            exact single
          · rw [server]
            exact distinct
          · rw [server]
            exact member
          · rw [server]
            exact leased.lasting
      · obtain ⟨single,distinct,member,state,parsed,fresh⟩ := parse_foreign (d:=⟨t.server,t.setup.clientAddress⟩)
          leased.single leased.distinct leased.wish leased.member leased.online other clear cookie
          (packet.totLen.toInt16 - 240).toUInt16
        have foreign : ¬(true = true ∧ Renewal p heap packet) := fun both => other both.2.mine
        refine ⟨⟨fun _ _ renews => absurd renews.mine other,fun _ r sent => ?_⟩,p,if_neg foreign,?_⟩
        · cases pbufAlloc with
          | false =>
            rw [if_neg (by simp)] at sent
            cases sent
          | true =>
            rw [if_pos rfl,parsed] at sent
            obtain ⟨reply,went,rfl⟩ := Option.map_eq_some_iff.mp (Outcome.reply.inj sent)
            have told := replied_send t.setup.settings
              (parseMsg ⟨t.server,t.setup.clientAddress⟩ (copyMsg heap packet) (packet.totLen.toInt16 - 240).toUInt16).1
              (copyMsg heap packet) state
            rw [went] at told
            by_cases nothing : state = .idle ∨ state = .release
            · rw [if_pos nothing] at told
              cases told
            rw [if_neg nothing] at told
            obtain ⟨_,address⟩ := Prod.mk.inj (Option.some.inj told)
            rw [show reply = (reply.1,reply.2) from rfl,reply_yiaddr,address]
            exact fresh fun release => nothing (.inr release)
        · refine ⟨on,server ▸ single,server ▸ distinct,leased.wish,server ▸ member,leased.online,leased.alive,?_⟩
          rw [server,(parseMsg_range ..).2]
          exact leased.lasting
    · have parsed : parseMsg ⟨t.server,t.setup.clientAddress⟩ (copyMsg heap packet)
          (packet.totLen.toInt16 - 240).toUInt16 = (⟨t.server,t.setup.clientAddress⟩,none) := if_neg cookie
      rw [parsed] at server ⊢
      refine ⟨⟨fun _ _ renews => absurd renews.cookie cookie,fun _ r sent => ?_⟩,p,if_neg fun both => cookie both.2.cookie,?_⟩
      · cases pbufAlloc <;> cases sent
      · exact leased.same on (congrArg Server.plist server) (server ▸ leased.lasting)

theorem call_lasts (leased : Leased p t) (call : Call) (undisturbed : Undisturbed p t call)
    (answered : t.serve call = some (t',outcome)) :
    Confirmed p outcome call ∧ (p.passed t call = none → Unknown t'.server p.mac) ∧
      ∀ p', p.passed t call = some p' → Leased p' t' := by
  cases call with
  | start info given =>
    have yes : given = true := undisturbed
    subst yes
    obtain ⟨info,_,same⟩ := Option.map_eq_some_iff.mp answered
    cases same
    refine ⟨trivial,fun none => (nomatch none),fun p' same => ?_⟩
    cases same
    exact leased.same rfl rfl leased.lasting
  | stop => exact undisturbed.elim
  | setting setting =>
    obtain ⟨⟨v,answer⟩,ran,same⟩ := Option.map_eq_some_iff.mp answered
    cases same
    refine ⟨trivial,fun none => (nomatch none),fun p' same => ?_⟩
    cases same
    exact leased.same leased.phase rfl (configure_lasting leased.lasting setting ran)
  | event event =>
    obtain ⟨server,ran,same⟩ := Option.map_eq_some_iff.mp answered
    cases same
    exact ⟨trivial,event_lasts leased event undisturbed ran⟩
  | datagram heap packet zalloc pbufAlloc =>
    obtain ⟨confirmed,p',passed,after⟩ := datagram_lasts leased heap packet zalloc pbufAlloc undisturbed answered
    refine ⟨confirmed,?_,?_⟩
    · intro none
      rw [passed] at none
      cases none
    · intro p'' same
      cases passed.symm.trans same
      exact after

end Lasting

def phoneProvider : Provider :=
  ⟨⟨0,0x0104a8c0,0,0xff04a8c0,0xFF,⟨0x0104a8c0,0x00ffffff,0x0104a8c0⟩,⟨0x0104a8c0,0x00ffffff,0x0104a8c0⟩,true⟩,
    ⟨accessPoint.dhcpsLease,[⟨0x0204a8c0,phone,2,.dynamic,.online⟩],false,120⟩,.on⟩

def phoneRenews : Pbuf :=
  datagram 0x0204a8c0 phone [dhcpOptionMsgType,1,3,dhcpOptionReqIpaddr,4,192,168,4,2,dhcpOptionEnd] (by decide)

end NonosLinkLayer.Dhcps
