import NonosLinkLayer.Dhcps.Service

namespace NonosLinkLayer.Dhcps
open ByteMemory HeapList

-- Whether there is a block to listen with. A stop leaves the pointer to the block
-- it has given back, and the next start is the first to set it again.
inductive Phase where
  | off
  | on
  | gone
  deriving DecidableEq, Repr

def Phase.stopped : Phase → Option Phase
  | .off => some .off
  | .on => some .gone
  | .gone => none

-- The server without its pointers: a list of leases, and a service that is there or not.
structure Provider where
  setup : Setup
  server : Server
  phase : Phase

def Call.status : Call → Option DhcpStatus
  | .setting (.setLease _ status _) => some status
  | .setting (.getLease _ status _) => some status
  | .setting (.setLeaseTime _ status _) => some status
  | .setting (.resetLeaseTime _ status) => some status
  | .setting (.setOfferOption status _ _) => some status
  | _ => none

def Call.Told (call : Call) (phase : Phase) : Prop := ∀ status, call.status = some status → (status = .started ↔ phase = .on)

namespace Provider

def serve (t : Provider) : Call → Option (Provider × Outcome)
  | .start info given => info.map fun info =>
    (⟨t.setup.start info,{t.server with dhcpsLease := wifiSoftapInitDhcpsLease t.server.dhcpsLease info.ip},
      if given then .on else .off⟩,.nothing)
  | .stop => t.phase.stopped.map fun phase => (⟨t.setup,Dhcps.dhcpsStop t.server,phase⟩,.nothing)
  | .setting setting =>
    ((Variables.mk t.setup t.server.dhcpsLease t.server.dhcpsLeaseTime).configure setting).map fun (v,outcome) =>
      (⟨v.setup,{t.server with dhcpsLease := v.dhcpsLease,dhcpsLeaseTime := v.dhcpsLeaseTime},t.phase⟩,outcome)
  | .event event => (perform t.server event).map fun server => ({t with server := server},.nothing)
  | .datagram heap p zalloc pbufAlloc =>
    if t.phase = .on ∧ zalloc then
      let (d,reply) := handleDhcp t.setup.settings heap ⟨t.server,t.setup.clientAddress⟩ p
      let setup := {t.setup with clientAddress := d.clientAddress}
      some (⟨setup,d.server,t.phase⟩,.reply (if pbufAlloc then reply.map setup.reply else none))
    else some (t,.reply none)

def Held (t : Provider) : Prop := t.phase = .on → Validated t.server.dhcpsLease t.setup.serverAddress

def AllHeld : Provider → List Call → Prop
  | t,[] => t.Held
  | t,call :: rest => t.Held ∧ (call.Told t.phase → ∀ t' outcome, t.serve call = some (t',outcome) → AllHeld t' rest)

end Provider

def Listens (s : Service) : Phase → Prop
  | .off => s.pcbDhcps = null ∧ s.state = null ∧ s.blocks = []
  | .on => s.pcbDhcps ≠ null ∧ s.state = s.pcbDhcps ∧ s.blocks = [s.pcbDhcps]
  | .gone => s.pcbDhcps ≠ null ∧ s.state = null ∧ s.blocks = []

structure Shown (pool : Nodes.State) (server : Server) : Prop where
  shows : Nodes.Shows pool server
  stored : ∃ cells, Nodes.Stored pool.heap pool.plist cells
  ordered : Ordered server.plist
  single : Single server

structure Matches (s : Service) (t : Provider) : Prop where
  setup : s.setup = t.setup
  pool : Shown s.pool t.server
  listens : Listens s t.phase

structure Supply.Fits (supply : Supply) (s : Service) (t : Provider) : Prop where
  node : s.pool.heap.Fresh supply.node
  pcb : supply.pcb ≠ null ∧ supply.pcb ∉ s.blocks
  enough : t.server.plist.length + 1 < supply.turns

-- The two go through the same calls with the same answers, wherever the
-- allocators put what they give, and where one of them fails the other does.
def AllServed : Service → Provider → List Call → Prop
  | s,t,[] => Matches s t
  | s,t,call :: rest => Matches s t ∧ ∀ supply : Supply, supply.Fits s t →
      (t.serve call = none → s.serve supply call = none) ∧
      ∀ t' outcome, t.serve call = some (t',outcome) → ∃ s', s.serve supply call = some (s',outcome) ∧ AllServed s' t' rest

section Served
variable {s : Service} {t : Provider} {pool : Nodes.State} {server : Server} {turns : Nat} {fresh : Ptr} {supply : Supply}

theorem insert_length (node : DhcpsPool) (l : List DhcpsPool) : (nodeInsertToList node l).length = l.length + 1 :=
  (insert_perm node l).length_eq

theorem Assigned.length_le {s : Server} {bssid : Mac} {ip : Option UInt32} {type : DhcpsType} {plist : List DhcpsPool}
    {addr : UInt32} {renew : Bool} (assigned : Assigned s bssid ip type plist addr renew) :
    plist.length ≤ s.plist.length + 1 := by
  cases assigned with
  | refused => exact Nat.le_succ _
  | renewed here mac own => exact (List.length_set ..).trans_le (Nat.le_succ _)
  | takenOver here mac there own other offline =>
    refine (List.eraseIdx_sublist ..).length_le.trans ?_
    rw [List.length_set]
    exact Nat.le_succ _
  | moved here mac chosen =>
    rw [insert_length]
    exact Nat.succ_le_succ (List.eraseIdx_sublist ..).length_le
  | inherited unknown there own offline => exact (List.length_set ..).trans_le (Nat.le_succ _)
  | opened unknown chosen fits => exact (insert_length _ _).le

theorem update_length (s : Server) (bssid : Option Mac) (ip : Option UInt32) :
    (wifiSoftapDhcpsClientUpdate s bssid ip).1.plist.length ≤ s.plist.length + 1 := by
  have changed := update_changed s bssid ip
  generalize (wifiSoftapDhcpsClientUpdate s bssid ip).1.plist = plist at changed ⊢
  cases changed with
  | fewer fewer =>
    have short := fewer.length_le
    unfold owners at short
    rw [List.length_map,List.length_map] at short
    exact Nat.le_succ_of_le short
  | assigned assigned => exact assigned.length_le
  | added node unknown => exact (insert_length _ _).le

theorem Shown.length {cells : List Ptr} (shown : Shown pool server) (stored : Nodes.Stored pool.heap pool.plist cells) :
    cells.length = server.plist.length := by
  obtain ⟨⟨others,chain,content⟩,_⟩ := shown.shows
  rw [←content,List.length_map,chain.unique stored.chain]

theorem Shown.obey (shown : Shown pool server) (free : pool.heap.Fresh fresh) (enough : server.plist.length < turns)
    (command : Command) :
    ∃ pool' server', Nodes.perform turns fresh pool command = some pool' ∧ Dhcps.obey server command = some server' ∧
      Shown pool' server' := by
  obtain ⟨server',obeyed,ordered,single⟩ := Nodes.obey_kept shown.ordered shown.single command
  obtain ⟨pool',ran,shows⟩ := Nodes.perform_shows shown.shows free enough command obeyed
  obtain ⟨cells,stored⟩ := shown.stored
  exact ⟨pool',server',ran,obeyed,shows,Nodes.perform_stored stored free (shown.length stored ▸ enough) command ran,ordered,single⟩

theorem Shown.update (shown : Shown pool server) (free : pool.heap.Fresh fresh) (enough : server.plist.length < turns)
    (bssid : Option Mac) (ip : Option UInt32) :
    ∃ pool', Nodes.wifiSoftapDhcpsClientUpdate turns fresh pool bssid ip =
        some (pool',(wifiSoftapDhcpsClientUpdate server bssid ip).2) ∧
      Shown pool' (wifiSoftapDhcpsClientUpdate server bssid ip).1 := by
  obtain ⟨pool',server',ran,obeyed,shown'⟩ := shown.obey free enough (.event (.update bssid ip))
  obtain ⟨pool'',went,_⟩ := Nodes.update_shows shown.shows free enough bssid ip
  cases obeyed
  rw [Nodes.perform,went] at ran
  cases ran
  exact ⟨pool'',went,shown'⟩

theorem Shown.leave (shown : Shown pool server) (enough : server.plist.length < turns) (bssid : Option Mac)
    (ip : Option UInt32) (force : Bool) :
    ∃ pool', Nodes.wifiSoftapDhcpsClientLeave turns pool bssid ip force = some pool' ∧
      Shown pool' (wifiSoftapDhcpsClientLeave server bssid ip force) := by
  obtain ⟨pool',went,shows⟩ := Nodes.leave_shows shown.shows enough bssid ip force
  obtain ⟨server',obeyed,ordered,single⟩ := Nodes.obey_kept shown.ordered shown.single (.event (.leave bssid ip force))
  obtain ⟨cells,stored⟩ := shown.stored
  cases obeyed
  exact ⟨pool',went,shows,Nodes.leave_stored stored (shown.length stored ▸ enough) went,ordered,single⟩

theorem parse_shown (shown : Shown pool server) (free : pool.heap.Fresh supply.node)
    (enough : server.plist.length + 1 < supply.turns) (clientAddress : UInt32) (m : Memory) (len : UInt16) :
    ∃ pool', Service.parseMsg supply pool clientAddress m len =
        some ((pool',(parseMsg ⟨server,clientAddress⟩ m len).1.clientAddress),(parseMsg ⟨server,clientAddress⟩ m len).2) ∧
      Shown pool' (parseMsg ⟨server,clientAddress⟩ m len).1.server := by
  unfold Service.parseMsg parseMsg
  by_cases cookie : read32 m optionsAt = magicCookie
  · obtain ⟨pool₁,updated,shown₁⟩ := shown.update free (Nat.lt_of_succ_lt enough) (some (chaddr m)) (some (ciaddr m))
    have room := Nat.lt_of_le_of_lt (update_length server (some (chaddr m)) (some (ciaddr m))) enough
    rw [if_pos cookie,if_pos cookie]
    dsimp only
    rw [updated]
    dsimp only [Option.bind_eq_bind,Option.bind_some]
    rw [shown₁.shows.renew]
    split_ifs with release
    · obtain ⟨pool₂,left,shown₂⟩ := shown₁.leave room (some (chaddr m)) (some (ciaddr m)) true
      rw [left]
      exact ⟨pool₂,rfl,shown₂⟩
    · exact ⟨pool₁,rfl,shown₁⟩
  · rw [if_neg cookie,if_neg cookie]
    exact ⟨pool,rfl,shown⟩

theorem send_bare (shows : Nodes.Shows pool server) (settings : Settings) (clientAddress : UInt32) (m : Memory)
    (state : Option Answer) :
    (Service.bare pool clientAddress).send settings m state = (Daemon.mk server clientAddress).send settings m state := by
  have time : (Service.bare pool clientAddress).server.dhcpsLeaseTime = server.dhcpsLeaseTime := shows.time
  have same : ∀ type options, sendMsg (Service.bare pool clientAddress) m type options =
      sendMsg ⟨server,clientAddress⟩ m type options := fun _ _ => rfl
  match state with
  | none => rfl
  | some .offer => simp only [Daemon.send,sendOffer,time,same]
  | some .ack => simp only [Daemon.send,sendAck,time,same]
  | some .nak => simp only [Daemon.send,sendNak,same]
  | some .idle => rfl
  | some .release => rfl

theorem transmit_on (listens : Listens s .on) (pbufAlloc : Bool) (r : Option (Answer × Memory)) :
    s.transmit pbufAlloc r = some (if pbufAlloc then r.map s.setup.reply else none) := by
  obtain ⟨real,_,blocks⟩ := listens
  cases r with
  | none => cases pbufAlloc <;> rfl
  | some r =>
    unfold Service.transmit udpReach
    rw [if_neg real,blocks,if_pos (List.mem_singleton.mpr rfl)]
    cases pbufAlloc <;> rfl

theorem datagram_served (related : Matches s t) (fits : supply.Fits s t) (heap : Memory) (p : Pbuf) (zalloc pbufAlloc : Bool)
    {t' : Provider} {outcome : Outcome} (answered : t.serve (.datagram heap p zalloc pbufAlloc) = some (t',outcome)) :
    ∃ s', s.serve supply (.datagram heap p zalloc pbufAlloc) = some (s',outcome) ∧ Matches s' t' := by
  obtain ⟨setup,shown,listens⟩ := related
  unfold Provider.serve at answered
  unfold Service.serve
  dsimp only at answered ⊢
  by_cases on : t.phase = .on
  · rw [on] at listens
    have some_block : s.blocks ≠ [] := by
      rw [listens.2.2]
      exact List.cons_ne_nil _ _
    rw [if_neg some_block]
    cases zalloc with
    | false =>
      rw [if_neg (by simp)] at answered
      cases answered
      exact ⟨s,rfl,setup,shown,on ▸ listens⟩
    | true =>
      rw [if_pos ⟨on,rfl⟩] at answered
      obtain ⟨pool,parsed,shown'⟩ := parse_shown shown fits.node fits.enough t.setup.clientAddress (copyMsg heap p)
        (p.totLen.toInt16 - 240).toUInt16
      unfold handleDhcp at answered
      dsimp only at answered
      generalize parseMsg ⟨t.server,t.setup.clientAddress⟩ (copyMsg heap p) (p.totLen.toInt16 - 240).toUInt16 = r
        at answered parsed shown'
      obtain ⟨⟨server,clientAddress⟩,state⟩ := r
      have after : Listens {s with pool := pool,setup := {s.setup with clientAddress := clientAddress}} .on := listens
      cases answered
      unfold Service.handleDhcp
      dsimp only
      rw [if_pos rfl,setup,parsed]
      dsimp only [Option.bind_eq_bind,Option.bind_some]
      rw [setup] at after
      rw [transmit_on after,send_bare shown'.shows]
      exact ⟨_,rfl,rfl,shown',on ▸ after⟩
  · have no_block : s.blocks = [] := by
      cases phase : t.phase with
      | on => exact absurd phase on
      | off =>
        rw [phase] at listens
        exact listens.2.2
      | gone =>
        rw [phase] at listens
        exact listens.2.2
    rw [if_neg fun both => on both.1] at answered
    cases answered
    rw [if_pos no_block]
    exact ⟨s,rfl,setup,shown,listens⟩

theorem Listens.cleared {phase : Phase} (listens : Listens s phase) : s.giveBack = some [] := by
  unfold Service.giveBack
  cases phase with
  | on =>
    obtain ⟨real,same,blocks⟩ := listens
    unfold udpRemove
    rw [same,if_pos real,if_neg real,blocks,if_pos (List.mem_singleton.mpr rfl)]
    simp
  | off => rw [if_neg (by simp [listens.2.1]),listens.2.2]
  | gone => rw [if_neg (by simp [listens.2.1]),listens.2.2]

theorem start_served (related : Matches s t) (fits : supply.Fits s t) (info : Info) (given : Bool) :
    ∃ s', s.dhcpsStart (some info) (if given then supply.pcb else null) = some s' ∧
      Matches s' ⟨t.setup.start info,{t.server with dhcpsLease := wifiSoftapInitDhcpsLease t.server.dhcpsLease info.ip},
        if given then .on else .off⟩ := by
  obtain ⟨setup,⟨shows,stored,ordered,single⟩,listens⟩ := related
  unfold Service.dhcpsStart
  rw [listens.cleared]
  dsimp only [Option.bind_eq_bind,Option.bind_some]
  refine ⟨_,rfl,by rw [setup],⟨⟨shows.list,?_,shows.renew,shows.time⟩,stored,ordered,single⟩,?_⟩
  · rw [shows.lease]
  · cases given with
    | true => exact ⟨fits.pcb.1,rfl,if_pos fits.pcb.1⟩
    | false => exact ⟨rfl,rfl,rfl⟩

theorem stop_served (related : Matches s t) (fits : supply.Fits s t) :
    (t.phase = .gone → s.dhcpsStop supply.turns = none) ∧
    ∀ phase, t.phase.stopped = some phase →
      ∃ s', s.dhcpsStop supply.turns = some s' ∧ Matches s' ⟨t.setup,Dhcps.dhcpsStop t.server,phase⟩ := by
  obtain ⟨setup,shown,listens⟩ := related
  unfold Service.dhcpsStop
  constructor
  · intro gone
    rw [gone] at listens
    obtain ⟨real,_,blocks⟩ := listens
    have freed : udpReach s.blocks s.pcbDhcps = none := by
      unfold udpReach
      rw [if_neg real,blocks,if_neg List.not_mem_nil]
    rw [freed]
    rfl
  · intro phase stops
    obtain ⟨pool,server,ran,obeyed,shown'⟩ := shown.obey fits.node (Nat.lt_of_succ_lt fits.enough) .stop
    have emptied : Nodes.dhcpsStop supply.turns s.pool = some pool := ran
    cases obeyed
    rw [listens.cleared,emptied]
    cases here : t.phase with
    | gone =>
      rw [here] at stops
      cases stops
    | off =>
      rw [here] at stops listens
      cases stops
      obtain ⟨block,_,_⟩ := listens
      have reached : udpReach s.blocks s.pcbDhcps = some false := if_pos block
      rw [reached]
      exact ⟨_,rfl,setup,shown',block,rfl,rfl⟩
    | on =>
      rw [here] at stops listens
      cases stops
      obtain ⟨real,_,blocks⟩ := listens
      have reached : udpReach s.blocks s.pcbDhcps = some true := by
        unfold udpReach
        rw [if_neg real,blocks,if_pos (List.mem_singleton.mpr rfl)]
      rw [reached]
      exact ⟨_,rfl,setup,shown',real,rfl,rfl⟩

theorem setting_served (related : Matches s t) (setting : Setting) :
    (t.serve (.setting setting) = none → s.serve supply (.setting setting) = none) ∧
    ∀ t' outcome, t.serve (.setting setting) = some (t',outcome) →
      ∃ s', s.serve supply (.setting setting) = some (s',outcome) ∧ Matches s' t' := by
  obtain ⟨setup,⟨shows,stored,ordered,single⟩,listens⟩ := related
  have same : Variables.mk s.setup s.pool.dhcpsLease s.pool.dhcpsLeaseTime =
      ⟨t.setup,t.server.dhcpsLease,t.server.dhcpsLeaseTime⟩ := by rw [setup,shows.lease,shows.time]
  unfold Provider.serve Service.serve
  dsimp only
  rw [same]
  cases (Variables.mk t.setup t.server.dhcpsLease t.server.dhcpsLeaseTime).configure setting with
  | none => exact ⟨fun _ => rfl,fun _ _ answered => nomatch answered⟩
  | some r =>
    obtain ⟨v,answer⟩ := r
    refine ⟨fun failed => (nomatch failed),fun t' outcome answered => ?_⟩
    cases answered
    exact ⟨_,rfl,rfl,⟨⟨shows.list,rfl,shows.renew,rfl⟩,stored,ordered,single⟩,listens⟩

theorem event_served (related : Matches s t) (fits : supply.Fits s t) (event : Event) :
    ∃ s' t', t.serve (.event event) = some (t',.nothing) ∧ s.serve supply (.event event) = some (s',.nothing) ∧
      Matches s' t' := by
  obtain ⟨setup,shown,listens⟩ := related
  obtain ⟨pool,server,ran,obeyed,shown'⟩ := shown.obey fits.node (Nat.lt_of_succ_lt fits.enough) (.event event)
  have went : perform t.server event = some server := obeyed
  unfold Provider.serve Service.serve
  dsimp only
  rw [ran,went]
  exact ⟨_,_,rfl,rfl,setup,shown',listens⟩

theorem call_served (related : Matches s t) (fits : supply.Fits s t) (call : Call) :
    (t.serve call = none → s.serve supply call = none) ∧
    ∀ t' outcome, t.serve call = some (t',outcome) → ∃ s', s.serve supply call = some (s',outcome) ∧ Matches s' t' := by
  cases call with
  | start info given =>
    cases info with
    | none =>
      -- the address is read through the null pointer
      have failed : s.dhcpsStart none (if given then supply.pcb else null) = none := by
        unfold Service.dhcpsStart
        rw [related.listens.cleared]
        rfl
      refine ⟨fun _ => ?_,fun _ _ answered => nomatch answered⟩
      rw [Service.serve,failed]
      rfl
    | some info =>
      obtain ⟨s',ran,after⟩ := start_served related fits info given
      refine ⟨fun failed => (nomatch failed),fun t' outcome answered => ?_⟩
      cases answered
      rw [Service.serve,ran]
      exact ⟨s',rfl,after⟩
  | stop =>
    obtain ⟨fails,goes⟩ := stop_served related fits
    unfold Provider.serve Service.serve
    refine ⟨fun failed => ?_,fun t' outcome answered => ?_⟩
    · have gone : t.phase = .gone := by
        cases here : t.phase with
        | gone => rfl
        | _ =>
          rw [here] at failed
          cases failed
      rw [fails gone]
      rfl
    · obtain ⟨phase,stops,same⟩ := Option.map_eq_some_iff.mp answered
      obtain ⟨s',ran,after⟩ := goes phase stops
      cases same
      rw [ran]
      exact ⟨s',rfl,after⟩
  | setting setting => exact setting_served related setting
  | event event =>
    obtain ⟨s',t',went,ran,after⟩ := event_served related fits event
    refine ⟨fun failed => ?_,fun t'' outcome answered => ?_⟩
    · rw [went] at failed
      cases failed
    · cases went.symm.trans answered
      exact ⟨s',ran,after⟩
  | datagram heap p zalloc pbufAlloc =>
    refine ⟨fun failed => ?_,fun t' outcome answered => datagram_served related fits heap p zalloc pbufAlloc answered⟩
    unfold Provider.serve at failed
    dsimp only at failed
    split_ifs at failed

theorem run_served (related : Matches s t) (calls : List Call) : AllServed s t calls := by
  induction calls generalizing s t with
  | nil => exact related
  | cons call rest ih =>
    refine ⟨related,fun supply fits => ?_⟩
    obtain ⟨fails,goes⟩ := call_served related fits call
    refine ⟨fails,fun t' outcome answered => ?_⟩
    obtain ⟨s',ran,after⟩ := goes t' outcome answered
    exact ⟨s',ran,ih after⟩

end Served

section Held
variable {s next : Server} {t t' : Provider} {outcome : Outcome}

def SameRange (s next : Server) : Prop := next.dhcpsLease = s.dhcpsLease ∧ next.dhcpsLeaseTime = s.dhcpsLeaseTime

theorem update_range (s : Server) (bssid : Option Mac) (ip : Option UInt32) :
    SameRange s (wifiSoftapDhcpsClientUpdate s bssid ip).1 := by
  have assigned : ∀ bssid ip type, SameRange s (assignIp s bssid ip type).1 := by
    intro bssid ip type
    obtain ⟨plist,addr,renew,ran,_⟩ := assignIp_outcome s bssid ip type
    rw [ran]
    exact ⟨rfl,rfl⟩
  unfold wifiSoftapDhcpsClientUpdate
  cases bssid with
  | none => exact ⟨rfl,rfl⟩
  | some bssid =>
    cases ip with
    | none => exact assigned ..
    | some ip =>
      dsimp only
      split_ifs
      · exact ⟨rfl,rfl⟩
      · exact assigned ..
      · exact assigned ..

theorem leave_range (s : Server) (bssid : Option Mac) (ip : Option UInt32) (force : Bool) :
    SameRange s (wifiSoftapDhcpsClientLeave s bssid ip force) := by
  unfold wifiSoftapDhcpsClientLeave
  split <;> exact ⟨rfl,rfl⟩

theorem perform_range (event : Event) (ran : perform s event = some next) : SameRange s next := by
  cases event with
  | update bssid ip =>
    cases ran
    exact update_range s bssid ip
  | leave bssid ip force =>
    cases ran
    exact leave_range s bssid ip force
  | add macaddr =>
    cases ran
    unfold wifiSoftapAddDhcpsLease
    split
    · exact ⟨rfl,rfl⟩
    · split_ifs <;> exact ⟨rfl,rfl⟩
  | timer =>
    have ticked : dhcpsCoarseTmr s = some next := ran
    unfold dhcpsCoarseTmr at ticked
    dsimp only at ticked
    split_ifs at ticked
    · obtain ⟨plist,_,same⟩ := Option.map_eq_some_iff.mp ticked
      cases same
      exact ⟨rfl,rfl⟩
    · cases ticked
      exact ⟨rfl,rfl⟩

theorem parseMsg_range (d : Daemon) (m : Memory) (len : UInt16) : SameRange d.server (parseMsg d m len).1.server := by
  obtain ⟨lease,time⟩ := update_range d.server (some (chaddr m)) (some (ciaddr m))
  unfold parseMsg
  split_ifs
  · dsimp only
    split_ifs
    · obtain ⟨lease',time'⟩ := leave_range (wifiSoftapDhcpsClientUpdate d.server (some (chaddr m)) (some (ciaddr m))).1
        (some (chaddr m)) (some (ciaddr m)) true
      exact ⟨lease'.trans lease,time'.trans time⟩
    · exact ⟨lease,time⟩
  · exact ⟨rfl,rfl⟩

-- A range that is in use is not set, and every start checks the one it finds.
theorem setting_held (held : t.Held) (setting : Setting) (told : (Call.setting setting).Told t.phase)
    (answered : t.serve (.setting setting) = some (t',outcome)) : t'.Held := by
  obtain ⟨⟨v,answer⟩,ran,same⟩ := Option.map_eq_some_iff.mp answered
  cases same
  intro on
  have range := held on
  cases setting with
  | setLease opmode status please =>
    have started : status = .started := (told status rfl).mpr on
    have refused : (wifiSoftapSetDhcpsLease t.server.dhcpsLease opmode status t.setup.softap.ip please).1 =
        t.server.dhcpsLease := by
      unfold wifiSoftapSetDhcpsLease
      by_cases mode : opmode = stationMode ∨ opmode = nullMode
      · rw [if_pos mode]
      · rw [if_neg mode]
        cases please with
        | none => rfl
        | some please => exact congrArg Prod.fst (if_pos started)
    cases ran
    change Validated (wifiSoftapSetDhcpsLease ..).1 _
    rw [refused]
    exact range
  | setOfferOption status level optarg =>
    obtain ⟨⟨offer,ok⟩,_,same⟩ := Option.bind_eq_some_iff.mp ran
    cases same
    exact range
  | _ =>
    cases ran
    exact range

theorem call_held (held : t.Held) (call : Call) (told : call.Told t.phase) (answered : t.serve call = some (t',outcome)) :
    t'.Held := by
  cases call with
  | start info given =>
    obtain ⟨info,_,same⟩ := Option.map_eq_some_iff.mp answered
    cases same
    exact fun _ => (init_checked t.server.dhcpsLease info.ip).validated
  | stop =>
    obtain ⟨phase,stops,same⟩ := Option.map_eq_some_iff.mp answered
    cases same
    intro on
    have still : phase = .on := on
    rw [still] at stops
    cases here : t.phase <;> rw [here] at stops <;> cases stops
  | setting setting => exact setting_held held setting told answered
  | event event =>
    obtain ⟨server,ran,same⟩ := Option.map_eq_some_iff.mp answered
    cases same
    intro on
    have range := held on
    rwa [←(perform_range event ran).1] at range
  | datagram heap p zalloc pbufAlloc =>
    unfold Provider.serve at answered
    dsimp only at answered
    split at answered
    · cases answered
      intro on
      have range := held on
      have kept : (handleDhcp t.setup.settings heap ⟨t.server,t.setup.clientAddress⟩ p).1.server.dhcpsLease =
          t.server.dhcpsLease := (parseMsg_range ..).1
      rwa [←kept] at range
    · cases answered
      exact held

theorem run_held (held : t.Held) (calls : List Call) : t.AllHeld calls := by
  induction calls generalizing t with
  | nil => exact held
  | cons call rest ih => exact ⟨held,fun told t' outcome answered => ih (call_held held call told answered)⟩

end Held

def atBoot (softap netifAp : Info) (up : Bool) : Setup := ⟨0,0,0,0,0xFF,softap,netifAp,up⟩

def Service.boot (setup : Setup) (pnext : Ptr → Ptr) (pnode : Ptr → DhcpsPool) : Service :=
  ⟨setup,⟨⟨false,0,0⟩,false,dhcpsLeaseTimeDef,⟨pnext,pnode,fun _ => false⟩,null⟩,null,null,[]⟩

def Provider.boot (setup : Setup) : Provider := ⟨setup,⟨⟨false,0,0⟩,[],false,dhcpsLeaseTimeDef⟩,.off⟩

-- From the start of the program on the server with its pointers does what the one
-- without them does, and fails where that one does: at a start without an address,
-- at a stop behind a stop, and at an option read through a null pointer.
theorem service_provides (softap netifAp : Info) (up : Bool) (pnext : Ptr → Ptr) (pnode : Ptr → DhcpsPool) (calls : List Call) :
    AllServed (Service.boot (atBoot softap netifAp up) pnext pnode) (Provider.boot (atBoot softap netifAp up)) calls ∧
      (Provider.boot (atBoot softap netifAp up)).AllHeld calls := by
  have chain : Chain (⟨pnext,pnode,fun _ => false⟩ : Nodes.PoolHeap) null [] := Chain.empty _
  have shown : Shown (Service.boot (atBoot softap netifAp up) pnext pnode).pool (Provider.boot (atBoot softap netifAp up)).server := by
    refine ⟨⟨⟨[],chain,rfl⟩,rfl,rfl,rfl⟩,⟨[],chain,?_⟩,List.Pairwise.nil,List.nodup_nil⟩
    intro p live
    cases live
  refine ⟨run_served ⟨rfl,shown,rfl,rfl,rfl⟩ calls,run_held ?_ calls⟩
  intro on
  cases on

end NonosLinkLayer.Dhcps
