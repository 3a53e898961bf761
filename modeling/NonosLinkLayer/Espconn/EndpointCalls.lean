import NonosLinkLayer.Espconn.Switchboard

namespace NonosLinkLayer.Endpoints
open HeapList Turns
open NonosLinkLayer.Connections (espconnIsconn)
open NonosLinkLayer.Espconn (Netif SendOpt UdpMsg UdpStack espconnArg espconnMem espconnOk)
open NonosLinkLayer.Espconn.UdpMsg (espconnUdpSent espconnUdpSendto transmit transmit_course)

-- Call by call UDP with its list does what the list of endpoints does, in whatever
-- order the calls come and wherever nodes and blocks are put.
def AllServed : State → Switchboard → List Call → Prop
  | s,t,[] => Matches s t
  | s,t,call :: rest => Matches s t ∧ ∀ supply : Supply, supply.Fits s → call.Fits s t →
      ∃ s', Ends (fun turns => s.serve turns supply call) (s',(t.serve supply.pcb call).2) ∧
        AllServed s' (t.serve supply.pcb call).1 rest

section Loops
variable {s : State} {t : Switchboard} {cells rest : List Ptr} {p e : Ptr} {m : UdpNode} {b : UdpPcb} {c : UdpConn} {supply : Supply}

theorem Linked.found (linked : Linked s t cells) (conn : udpAt s.conns e = some c) :
    Ends (fun turns => s.espconnFindConnection turns e) (cells.find? fun p => (s.msgs.pnode p).pespconn == e) := by
  refine (linked.chain.walkNodes (findTurn fun m => m.pespconn == e) none).mono fun turns walked => ?_
  refine (if_neg (udpAt_some conn).1).trans ?_
  rw [walked,walked_find (fun m : Msg => m.pespconn == e)]

theorem portTurn_tcp {port : Int} {used : Bool} (tcp : e = null ∨ connAt s.conns e = some .tcp) :
    s.portTurn port used p (.tcp e) = some (.next false) := by
  unfold State.portTurn
  by_cases real : e = null
  · exact if_pos real
  · refine (if_neg real).trans ?_
    rw [show connAt s.conns (Msg.tcp e).pespconn = some .tcp from tcp.resolve_left real]
    rfl

theorem portTurn_udp {port : Int} {used : Bool} (conn : udpAt s.conns m.pespconn = some c) :
    s.portTurn port used p (.udp m) = some (if port = c.localPort then .stop true else .next false) := by
  unfold State.portTurn
  refine (if_neg (udpAt_some conn).1).trans ?_
  rw [show connAt s.conns (Msg.udp m).pespconn = some (.udp c) from connAt_udp conn]
  rfl

theorem Linked.port_walked (linked : Linked s t cells) (port : Int) (inside : ∀ p ∈ rest, p ∈ cells) :
    walked (s.portTurn port) (rest.map fun p => (p,s.msgs.pnode p)) false = some ((rest.filterMap s.endpoint).any (t.uses port)) := by
  induction rest with
  | nil => rfl
  | cons p rest ih =>
    have later := ih fun q member => inside q (List.mem_cons_of_mem _ member)
    have member := inside p (List.mem_cons_self ..)
    rw [List.map_cons,walked,List.filterMap_cons]
    cases node : s.msgs.pnode p with
    | tcp f =>
      rw [endpoint_tcp node,portTurn_tcp (linked.tcp p member f node)]
      exact later
    | udp n =>
      obtain ⟨b,c,holds⟩ := linked.holds member node
      have uses : t.uses port (endpointOf n b) = decide (port = c.localPort) := by
        unfold Switchboard.uses
        rw [show udpAt t.conns (endpointOf n b).espconn = some c from linked.conns ▸ holds.conn]
        rw [Option.map_some,Option.some_beq_some]
        exact Bool.beq_comm.trans (beq_eq_decide ..)
      rw [holds.endpoint,portTurn_udp holds.conn,List.any_cons,uses]
      by_cases same : port = c.localPort
      · rw [if_pos same,decide_eq_true same,Bool.true_or]
      · rw [if_neg same,decide_eq_false same,Bool.false_or]
        exact later

theorem infoTurn_other {found : UInt8 × List (Nat × RemotInfo)} {a : Msg} (other : a.pespconn ≠ e) :
    s.infoTurn e found p a = some (.next found) := by
  cases a with
  | tcp f => rfl
  | udp n => exact if_neg other

theorem infoTurn_own {found : UInt8 × List (Nat × RemotInfo)} (conn : udpAt s.conns m.pespconn = some c) :
    s.infoTurn m.pespconn found p (.udp m) = some (.next (found.1 + 1,found.2 ++ [(found.1.toNat,⟨c.state,m.remotePort,m.remoteIp⟩)])) := by
  unfold State.infoTurn
  refine (if_pos rfl).trans ?_
  rw [show s.udpConn m.pespconn = some c from conn]
  rfl

theorem info_passes {found : UInt8 × List (Nat × RemotInfo)} (none : ∀ p ∈ rest, (s.msgs.pnode p).pespconn ≠ e) :
    walked (s.infoTurn e) (rest.map fun p => (p,s.msgs.pnode p)) found = some found := by
  induction rest with
  | nil => rfl
  | cons p rest ih =>
    rw [List.map_cons,walked,infoTurn_other (none p (List.mem_cons_self ..))]
    exact ih fun q member => none q (List.mem_cons_of_mem _ member)

theorem info_tells (holds : Holds s cells p m b c) (member : p ∈ rest) (apart : rest.Nodup)
    (alone : ∀ q ∈ rest, (s.msgs.pnode q).pespconn = m.pespconn → q = p) :
    walked (s.infoTurn m.pespconn) (rest.map fun p => (p,s.msgs.pnode p)) (0,[]) =
      some (1,[(0,⟨c.state,m.remotePort,m.remoteIp⟩)]) := by
  induction rest with
  | nil => cases member
  | cons q rest ih =>
    obtain ⟨off,apart⟩ := List.nodup_cons.mp apart
    by_cases here : q = p
    · subst here
      have others : ∀ x ∈ rest, (s.msgs.pnode x).pespconn ≠ m.pespconn := by
        intro x inside same
        rw [alone x (List.mem_cons_of_mem _ inside) same] at inside
        exact off inside
      rw [List.map_cons,walked,holds.node,infoTurn_own holds.conn]
      exact info_passes others
    · have other : (s.msgs.pnode q).pespconn ≠ m.pespconn := fun same => here (alone q (List.mem_cons_self ..) same)
      rw [List.map_cons,walked,infoTurn_other other]
      exact ih ((List.mem_cons.mp member).resolve_left fun same => here same.symm) apart
        fun x inside => alone x (List.mem_cons_of_mem _ inside)

end Loops

section Sending
variable {L : UdpStack} {opt : SendOpt} {u v : UdpMsg} {data : List UInt8}

def cleared (u : UdpMsg) : UdpMsg := {u with ptrbuf := [],cntr := 0,err := 0}

theorem emit_left (ptrbuf : List UInt8) (cntr : UInt16) (err : Int) (data : List UInt8) :
    UdpMsg.emit L opt data {u with ptrbuf,cntr,err} =
      ({(u.emit L opt data).1 with ptrbuf,cntr,err},(u.emit L opt data).2) := by
  unfold UdpMsg.emit UdpMsg.pbufAlloc
  cases L.pbufAlloc u.allocs with
  | false => rfl
  | true =>
    cases opt with
    | send =>
      cases two : L.duplicates u.remoteIp <;> cases second : L.pbufAlloc (u.allocs + 1) <;>
        simp [two,second,UdpMsg.aim,UdpMsg.handOver,UdpMsg.udpSend,UdpMsg.udpSendto,UdpMsg.remotePort16]
    | sendto =>
      cases two : L.duplicates u.pcbIp <;> cases second : L.pbufAlloc (u.allocs + 1) <;>
        simp [two,second,UdpMsg.aim,UdpMsg.handOver,UdpMsg.udpSendto,UdpMsg.remotePort16]

theorem transmit_left (ptrbuf : List UInt8) (cntr : UInt16) (err : Int) (turns : Nat) (data : List UInt8) (length : UInt16) :
    (transmit L opt turns data length {u with ptrbuf,cntr,err}).map (fun r => (cleared r.1,r.2)) =
      (transmit L opt turns data length u).map fun r => (cleared r.1,r.2) := by
  cases turns with
  | zero => rfl
  | succ turns =>
    unfold transmit
    by_cases none : length = 0
    · rw [if_pos none,if_pos none]
      rfl
    · rw [if_neg none,if_neg none]
      dsimp only
      rw [emit_left]
      cases u.emit L opt (data.take _) with
      | mk v answer =>
        cases answer with
        | error e => rfl
        | ok answer =>
          dsimp only
          rw [if_pos answer.held,if_pos answer.held]

theorem transmit_ends (L : UdpStack) (opt : SendOpt) (u : UdpMsg) (ptrbuf : List UInt8) (cntr : UInt16) (err : Int) (some : data ≠ []) (short : data.length < 65536) :
    ∃ v w code, Ends (fun turns => transmit L opt turns data (UInt16.ofNat data.length) {u with ptrbuf,cntr,err}) (v,code) ∧
      transmit L opt (Pieces.pieces 1472 data.length + 1) data (UInt16.ofNat data.length) u = .some (w,code) ∧ cleared v = cleared w := by
  have whole : data.length = (UInt16.ofNat data.length).toNat := (Nat.mod_eq_of_lt short).symm
  have more : UInt16.ofNat data.length ≠ 0 := by
    intro zero
    rw [zero] at whole
    exact some (List.length_eq_zero_iff.mp whole)
  obtain ⟨v,code,_,ran,_⟩ := transmit_course (L := L) (s := {u with ptrbuf,cntr,err}) opt whole more rfl
  have same : (transmit L opt (Pieces.pieces 1472 data.length + 1) data (UInt16.ofNat data.length) {u with ptrbuf,cntr,err}).map
      (fun r => (cleared r.1,r.2)) = _ := transmit_left ptrbuf cntr err _ data (UInt16.ofNat data.length)
  rw [ran _ (Nat.lt_succ_self _)] at same
  obtain ⟨⟨w,code'⟩,sent,equal⟩ := Option.map_eq_some_iff.mp same.symm
  cases congrArg Prod.snd equal
  exact ⟨v,w,code,.enough ran,sent,(congrArg Prod.fst equal).symm⟩

end Sending

section Served
variable {s : State} {t : Switchboard} {cells behind ahead : List Ptr} {p e : Ptr} {m : UdpNode} {b : UdpPcb} {c : UdpConn}
  {supply : Supply} {L : UdpStack} {opt : SendOpt} {data : List UInt8}

def Served (s : State) (t : Switchboard) (supply : Supply) (call : Call) : Prop :=
  ∃ s' cells, Ends (fun turns => s.serve turns supply call) (s',(t.serve supply.pcb call).2) ∧
    Linked s' (t.serve supply.pcb call).1 cells

theorem Linked.append (linked : Linked s t cells) (fresh : s.msgs.Fresh p) (a : Msg) :
    ∃ k, Ends (fun turns => State.espconnListCreat turns {s with msgs := s.msgs.alloc p a} p) (s.listed k (cells ++ [p])) ∧
      Chain k ((cells ++ [p]).headD null) (cells ++ [p]) ∧ k.pnode = (s.msgs.alloc p a).pnode ∧ k.live = (s.msgs.alloc p a).live := by
  obtain ⟨off,chain⟩ := linked.chain.alloc fresh a
  have node : (s.msgs.alloc p a).Node p := ⟨fresh.1,Function.update_self ..⟩
  obtain ⟨k,ran,after,pnode,live⟩ := chain.appendNode node off
  exact ⟨k,ran.map _,after,pnode,live⟩

theorem Linked.cut (linked : Linked s t (behind ++ p :: ahead)) :
    ∃ k, (∀ pcbs, Ends (fun turns => State.espconnListDelete turns {s with pcbs} p)
        {s.listed (k.freed p) (behind ++ ahead) with pcbs}) ∧
      Chain k ((behind ++ ahead).headD null) (behind ++ ahead) ∧ k.pnode = s.msgs.pnode ∧ k.live = s.msgs.live := by
  obtain ⟨k,ran,after,pnode,live⟩ := linked.chain.deleteNode
  have before := linked.node (List.mem_append_right _ (List.mem_cons_self ..))
  have node : k.Node p := ⟨before.1,by rw [live]; exact before.2⟩
  refine ⟨k,fun pcbs => ran.bind (.always fun turns => ?_),after,pnode,live⟩
  dsimp only
  rw [node.free]
  rfl

theorem Linked.without (linked : Linked s t (behind ++ p :: ahead)) (holds : Holds s (behind ++ p :: ahead) p m b c) :
    (behind ++ ahead).filterMap s.endpoint = t.endpoints.filter fun q => q.espconn ≠ m.pespconn := by
  have others (l : List Ptr) (inside : ∀ q ∈ l, q ∈ behind ++ p :: ahead) (off : p ∉ l) :
      (l.filterMap s.endpoint).filter (fun q => q.espconn ≠ m.pespconn) = l.filterMap s.endpoint := by
    refine List.filter_eq_self.mpr fun r member => decide_eq_true fun same => ?_
    obtain ⟨q,here,shown⟩ := List.mem_filterMap.mp member
    cases node : s.msgs.pnode q with
    | tcp e =>
      rw [endpoint_tcp node] at shown
      cases shown
    | udp n =>
      obtain ⟨b',c',other⟩ := linked.holds (inside q here) node
      rw [other.endpoint] at shown
      cases shown
      rw [linked.alone q (inside q here) p holds.member n m node holds.node same] at here
      exact off here
  obtain ⟨offBehind,offAhead⟩ := linked.chain.foreign_split
  rw [←linked.endpoints,List.filterMap_append,List.filterMap_append,List.filterMap_cons,holds.endpoint,List.filter_append,
    others behind (fun q member => List.mem_append_left _ member) offBehind]
  dsimp only
  rw [List.filter_cons_of_neg (by simp [endpointOf]),
    others ahead (fun q member => List.mem_append_right _ (List.mem_cons_of_mem _ member)) offAhead]

theorem Linked.port_searched (linked : Linked s t cells) (port : Int) :
    Ends (fun turns => walkNodes (s.portTurn port) s.msgs turns s.plinkActive false) (t.endpoints.any (t.uses port)) := by
  refine (linked.chain.walkNodes (s.portTurn port) false).mono fun turns walked => ?_
  refine walked.trans ?_
  rw [linked.port_walked port fun _ member => member,linked.endpoints]

theorem Linked.unused (linked : Linked s t cells) (conn : udpAt s.conns e = some c) (free : t.endpoints.any (t.uses c.localPort) = false) :
    ∀ q ∈ cells, (s.msgs.pnode q).pespconn ≠ e := by
  rcases linked.searched conn with ⟨none,_⟩ | ⟨p,m,b,holds,rfl,_⟩
  · exact none
  · have used : t.uses c.localPort (endpointOf m b) = true := by
      unfold Switchboard.uses
      rw [show udpAt t.conns (endpointOf m b).espconn = some c from linked.conns ▸ conn]
      exact beq_self_eq_true _
    rw [List.any_eq_false] at free
    exact absurd used (free _ (linked.shown holds))

theorem Served.of {call : Call} {outcome : Outcome} {s' : State} {t' : Switchboard} {cells' : List Ptr}
    (ran : Ends (fun turns => s.serve turns supply call) (s',outcome)) (told : t.serve supply.pcb call = (t',outcome))
    (linked : Linked s' t' cells') : Served s t supply call := by
  refine ⟨s',cells',?_,?_⟩
  · rw [told]
    exact ran
  · rw [told]
    exact linked

theorem create_ends {used given zalloc : Bool} {r : State × Int} (conn : connAt s.conns e = some (.udp c))
    (search : Ends (fun turns => walkNodes (s.portTurn c.localPort) s.msgs turns s.plinkActive false) used)
    (rest : Ends (fun turns => if used then some (s,espconnIsconn) else s.espconnUdpServer turns supply e given zalloc) r) :
    Ends (fun turns => s.serve turns supply (.create e given zalloc)) (r.1,.result r.2) := by
  have real : e ≠ null := by
    rintro rfl
    cases conn
  refine Ends.map ?_ _
  refine (Ends.bind (h := fun turns (used : Bool) =>
    if used then some (s,espconnIsconn) else s.espconnUdpServer turns supply e given zalloc) search rest).mono fun turns ran => ?_
  refine Eq.trans ?_ ran
  change State.espconnCreate turns supply s e given zalloc = _
  unfold State.espconnCreate
  rw [if_neg real,conn]
  rfl

theorem create_joins (linked : Linked s t cells) (free : supply.Fits s) (conn : udpAt s.conns e = some c)
    (unused : ∀ q ∈ cells, (s.msgs.pnode q).pespconn ≠ e)
    (search : Ends (fun turns => walkNodes (s.portTurn c.localPort) s.msgs turns s.plinkActive false) false)
    (told : t.serve supply.pcb (.create e true true) =
      ({t with endpoints := t.endpoints ++ [⟨e,supply.pcb,0,0,0,0⟩]},.result espconnOk)) : Served s t supply (.create e true true) := by
  obtain ⟨k,ran,chain,pnode,live⟩ := linked.append free.1 (.udp ⟨e,supply.pcb,0,0,[],0,0⟩)
  have here : k.pnode supply.node = .udp ⟨e,supply.pcb,0,0,[],0,0⟩ := by
    rw [pnode]
    exact Function.update_self ..
  have block : Function.update s.pcbs supply.pcb (some ⟨0,0,supply.node⟩) supply.pcb = some ⟨0,0,supply.node⟩ := Function.update_self ..
  have kept (x : Ptr) (b : UdpPcb) (there : s.pcbs x = some b) :
      Function.update s.pcbs supply.pcb (some ⟨0,0,supply.node⟩) x = some b := by
    have other : x ≠ supply.pcb := by
      rintro rfl
      rw [free.2] at there
      cases there
    exact (Function.update_of_ne other ..).trans there
  have split (x : Ptr) (b : UdpPcb) (there : Function.update s.pcbs supply.pcb (some ⟨0,0,supply.node⟩) x = some b) :
      s.pcbs x = some b ∨ (b.recvArg = supply.node ∧ ∃ m, Msg.udp ⟨e,supply.pcb,0,0,[],0,0⟩ = .udp m ∧ m.pcb = x) := by
    by_cases same : x = supply.pcb
    · subst same
      rw [block] at there
      cases there
      exact .inr ⟨rfl,_,rfl,rfl⟩
    · rw [Function.update_of_ne same] at there
      exact .inl there
  have joined := linked.joins free.1 chain pnode live ?_ ?_ kept split
  · rw [endpoint_udp here block] at joined
    have ends : Ends (fun turns => s.espconnUdpServer turns supply e true true)
        ((s.listed k (cells ++ [supply.node])).putPcb supply.pcb (some ⟨0,0,supply.node⟩),espconnOk) := by
      refine (ran.bind (.always fun turns => ?_)).mono fun turns done => done
      change (udpAt s.conns e).bind _ = _
      rw [conn]
      rfl
    exact .of (create_ends (r := (_,espconnOk)) (connAt_udp conn) search (ends.mono fun turns done => done)) told joined
  · intro m same
    cases same
    exact ⟨⟨c,conn⟩,unused,_,block,rfl⟩
  · intro f same
    cases same

theorem create_served (linked : Linked s t cells) (free : supply.Fits s) (given zalloc : Bool)
    (there : e = null ∨ (connAt t.conns e).isSome) : Served s t supply (.create e given zalloc) := by
  rcases eq_or_ne e null with rfl | real
  · exact .of (.always fun turns => rfl) rfl linked
  · obtain ⟨conn,found⟩ := Option.isSome_iff_exists.mp (there.resolve_left real)
    have own : connAt s.conns e = some conn := linked.conns ▸ found
    cases conn with
    | tcp =>
      refine .of (Ends.map (a := (s,espconnArg)) (.always fun turns => ?_) _) ?_ linked
      · unfold State.espconnCreate
        rw [if_neg real,own]
        rfl
      · change t.create supply.pcb e given zalloc = _
        unfold Switchboard.create udpAt
        rw [found]
    | udp c =>
      have udp : udpAt t.conns e = some c := by
        unfold udpAt
        rw [found]
      have conn : udpAt s.conns e = some c := linked.conns ▸ udp
      have search := linked.port_searched c.localPort
      have told : t.serve supply.pcb (.create e given zalloc) = if t.endpoints.any (t.uses c.localPort) then (t,.result espconnIsconn)
          else if given ∧ zalloc then ({t with endpoints := t.endpoints ++ [⟨e,supply.pcb,0,0,0,0⟩]},.result espconnOk)
          else (t,.result espconnMem) := by
        change t.create supply.pcb e given zalloc = _
        unfold Switchboard.create
        rw [udp]
      cases used : t.endpoints.any (t.uses c.localPort) with
      | true =>
        rw [used] at search told
        exact .of (create_ends own search (.always fun turns => rfl)) (told.trans (if_pos rfl)) linked
      | false =>
        rw [used] at search told
        rw [if_neg Bool.false_ne_true] at told
        by_cases memory : given = true ∧ zalloc = true
        · rw [if_pos memory] at told
          obtain ⟨rfl,rfl⟩ := memory
          exact create_joins linked free conn (linked.unused conn used) search told
        · refine .of (create_ends (r := (s,espconnMem)) own search (.always fun turns => ?_)) (told.trans (if_neg memory)) linked
          rw [if_neg Bool.false_ne_true]
          unfold State.espconnUdpServer
          cases given with
          | false => rfl
          | true =>
            cases zalloc with
            | false => rfl
            | true => exact absurd ⟨rfl,rfl⟩ memory

theorem Linked.looked (linked : Linked s t cells) (holds : Holds s cells p m b c)
    (alone : ∀ q ∈ cells, (s.msgs.pnode q).pespconn = m.pespconn → q = p) :
    Ends (fun turns => s.espconnFindConnection turns m.pespconn) (some p) := by
  have found := linked.found holds.conn
  rwa [find_alone holds.member (by rw [holds.node]; exact beq_self_eq_true _) fun q inside same => alone q inside (eq_of_beq same)]
    at found

theorem Linked.missed (linked : Linked s t cells) (conn : udpAt s.conns e = some c)
    (none : ∀ q ∈ cells, (s.msgs.pnode q).pespconn ≠ e) : Ends (fun turns => s.espconnFindConnection turns e) .none := by
  have found := linked.found conn
  rwa [List.find?_eq_none.mpr fun q inside same => none q inside (eq_of_beq same)] at found

theorem delete_ends {r : State × Int} {pnode : Option Ptr} (conn : udpAt s.conns e = some c)
    (search : Ends (fun turns => s.espconnFindConnection turns e) pnode)
    (rest : Ends (fun turns => match pnode with
      | none => some (s,espconnArg)
      | some p => (s.espconnUdpDisconnect turns p).bind fun s => some (s,espconnOk)) r) :
    Ends (fun turns => s.serve turns supply (.delete e)) (r.1,.result r.2) := by
  refine Ends.map ?_ _
  refine (Ends.bind (h := fun turns (pnode : Option Ptr) => match pnode with
      | none => some (s,espconnArg)
      | some p => (s.espconnUdpDisconnect turns p).bind fun s => some (s,espconnOk)) search rest).mono fun turns ran => ?_
  refine Eq.trans ?_ ran
  change State.espconnDelete turns s e = _
  unfold State.espconnDelete
  rw [if_neg (udpAt_some conn).1,show s.udpConn e = some c from conn]
  rfl

theorem delete_leaves (linked : Linked s t cells) (holds : Holds s cells p m b c)
    (search : Ends (fun turns => s.espconnFindConnection turns m.pespconn) (some p)) : Served s t supply (.delete m.pespconn) := by
  obtain ⟨behind,ahead,rfl⟩ := List.append_of_mem holds.member
  obtain ⟨k,ran,chain,pnode,live⟩ := linked.cut
  have kept (x : Ptr) (b' : UdpPcb) (there : s.pcbs x = some b') (other : b'.recvArg ≠ p) :
      Function.update s.pcbs m.pcb none x = some b' := by
    refine (Function.update_of_ne ?_ ..).trans there
    rintro rfl
    rw [holds.pcb] at there
    cases there
    exact other holds.arg
  have split (x : Ptr) (b' : UdpPcb) (there : Function.update s.pcbs m.pcb none x = some b') : s.pcbs x = some b' ∧ b'.recvArg ≠ p := by
    have apart : x ≠ m.pcb := by
      rintro rfl
      rw [Function.update_self] at there
      cases there
    rw [Function.update_of_ne apart] at there
    refine ⟨there,fun same => apart ?_⟩
    obtain ⟨_,n,node,rfl⟩ := linked.blocks x b' there
    rw [same,holds.node] at node
    cases node
    rfl
  have left := linked.leaves chain pnode live kept split
  rw [linked.without holds] at left
  have ends : Ends (fun turns => (s.espconnUdpDisconnect turns p).bind fun s => some (s,espconnOk))
      ({s.listed (k.freed p) (behind ++ ahead) with pcbs := Function.update s.pcbs m.pcb none},espconnOk) := by
    refine Ends.bind ?_ (.always fun turns => rfl)
    refine (ran _).mono fun turns done => Eq.trans ?_ done
    have node : s.udpNode p = some m := by
      unfold State.udpNode
      rw [(linked.node holds.member).node,holds.node]
      rfl
    change State.espconnUdpDisconnect turns s p = _
    unfold State.espconnUdpDisconnect
    rw [node]
    dsimp only [Option.bind_eq_bind,Option.bind_some]
    rw [holds.pcb]
    rfl
  have told : t.serve supply.pcb (.delete m.pespconn) =
      ({t with endpoints := t.endpoints.filter fun q => q.espconn ≠ m.pespconn},.result espconnOk) := by
    change t.delete m.pespconn = _
    unfold Switchboard.delete
    rw [linked.find holds]
  exact .of (delete_ends holds.conn search ends) told left

theorem delete_served (linked : Linked s t cells) (there : e = null ∨ (udpAt t.conns e).isSome) : Served s t supply (.delete e) := by
  rcases eq_or_ne e null with rfl | real
  · have missing : t.find null = none := by
      refine List.find?_eq_none.mpr fun r inside same => ?_
      obtain ⟨q,n,b,c,holds,rfl⟩ := linked.backed inside
      exact holds.real (eq_of_beq same)
    refine .of (.always fun turns => rfl) ?_ linked
    change t.delete null = _
    unfold Switchboard.delete
    rw [missing]
  · obtain ⟨c,found⟩ := Option.isSome_iff_exists.mp (there.resolve_left real)
    have conn : udpAt s.conns e = some c := linked.conns ▸ found
    rcases linked.searched conn with ⟨none,missing⟩ | ⟨p,m,b,holds,rfl,alone⟩
    · refine .of (delete_ends (r := (s,espconnArg)) conn (linked.missed conn none) (.always fun turns => rfl)) ?_ linked
      change t.delete e = _
      unfold Switchboard.delete
      rw [missing]
    · exact delete_leaves linked holds (linked.looked holds alone)

theorem Linked.udpNode (linked : Linked s t cells) (holds : Holds s cells p m b c) : s.udpNode p = some m := by
  unfold State.udpNode
  rw [(linked.node holds.member).node,holds.node]
  rfl

theorem storeNode_some (node : s.msgs.Node p) (m : UdpNode) : s.storeNode p m = some {s with msgs := s.msgs.stored p (.udp m)} := by
  unfold State.storeNode
  rw [node.store]
  rfl

theorem Linked.rewritten (linked : Linked s t cells) (conn : udpAt s.conns e = some c) (c' : UdpConn) :
    Linked (s.putConn e c') (t.put e c') cells := by
  refine linked.writes (fun p inside m node same => ⟨_,rfl⟩) fun p inside node => ?_
  have tcp := (linked.tcp p inside e node).resolve_left (udpAt_some conn).1
  rw [connAt_udp conn] at tcp
  cases tcp

theorem info_served (linked : Linked s t cells) (there : e = null ∨ (udpAt t.conns e).isSome) : Served s t supply (.info e) := by
  rcases eq_or_ne e null with rfl | real
  · exact .of (.always fun turns => rfl) rfl linked
  · obtain ⟨c,found⟩ := Option.isSome_iff_exists.mp (there.resolve_left real)
    have conn : udpAt s.conns e = some c := linked.conns ▸ found
    have written (linkCnt : UInt8) := linked.rewritten conn {c with linkCnt}
    have ends {linkCnt : UInt8} {premot : List (Nat × RemotInfo)}
        (told : walked (s.infoTurn e) (cells.map fun p => (p,s.msgs.pnode p)) (0,[]) = some (linkCnt,premot)) :
        Ends (fun turns => s.serve turns supply (.info e))
          (s.putConn e {c with linkCnt},.info (if linkCnt = 0 then espconnArg else espconnOk) premot) := by
      refine (linked.chain.walkNodes (s.infoTurn e) (0,[])).mono fun turns walked => ?_
      change State.espconnGetConnectionInfo turns s e = _
      unfold State.espconnGetConnectionInfo
      rw [if_neg real,show s.udpConn e = some c from conn]
      dsimp only [Option.bind_eq_bind,Option.bind_some]
      rw [walked,told]
      rfl
    rcases linked.searched conn with ⟨none,missing⟩ | ⟨p,m,b,holds,rfl,alone⟩
    · refine .of (ends (info_passes none)) ?_ (written 0)
      change t.tell e = _
      unfold Switchboard.tell
      rw [found,missing]
      rfl
    · refine .of (ends (info_tells holds holds.member linked.chain.apart alone)) ?_ (written 1)
      change t.tell m.pespconn = _
      unfold Switchboard.tell
      rw [found,linked.find holds]
      rfl

theorem ofNat_length (short : data.length < 65536) : UInt16.ofNat data.length = 0 ↔ data = [] := by
  rw [←UInt16.toNat_inj,UInt16.toNat_ofNat_of_lt' short]
  exact List.length_eq_zero_iff

def State.heard (s : State) (p : Ptr) (m : UdpNode) (c : UdpConn) (wifi : Wifi) (addr : UInt32) (port : UInt16) : State :=
  {s.putConn m.pespconn {c with localIp := wifi.localIp addr} with
    msgs := s.msgs.stored p (.udp {m with remoteIp := addr,remotePort := port.toNat})}

theorem recv_heard (linked : Linked s t cells) (holds : Holds s cells p m b c) (wifi : Wifi) (addr : UInt32) (port : UInt16)
    (zalloc : Bool) (data : List UInt8) :
    s.espconnUdpRecv wifi m.pcb addr port data zalloc =
      if (if zalloc then UInt16.ofNat data.length else 0) ≠ 0 ∧ c.recvCallback then
        some ({s.heard p m c wifi addr port with inside := some (data ++ [0]) :: s.inside},
          .received m.pespconn (data ++ [0]) (if zalloc then UInt16.ofNat data.length else 0))
      else some (s.heard p m c wifi addr port,.nothing) := by
  have node : s.msgs.Node b.recvArg := by
    rw [holds.arg]
    exact linked.node holds.member
  unfold State.espconnUdpRecv
  rw [holds.pcb]
  dsimp only [Option.bind_eq_bind,Option.bind_some]
  rw [holds.arg,linked.udpNode holds]
  dsimp only [Option.bind_some]
  rw [show s.udpConn m.pespconn = some c from holds.conn]
  dsimp only [Option.bind_some]
  rw [storeNode_some (s := s.putConn _ _) (linked.node holds.member)]
  rfl

theorem datagram_served {wifi : Wifi} {x : Ptr} {addr : UInt32} {port : UInt16} {zalloc : Bool} (linked : Linked s t cells)
    (there : (s.pcbs x).isSome) (short : data.length < 65536) : Served s t supply (.datagram wifi x addr port data zalloc) := by
  obtain ⟨b,block⟩ := Option.isSome_iff_exists.mp there
  obtain ⟨inside,m,node,rfl⟩ := linked.blocks x b block
  obtain ⟨b',c,holds⟩ := linked.holds inside node
  obtain rfl : b = b' := Option.some.inj (block.symm.trans holds.pcb)
  have still : s.pcbs = Function.update s.pcbs m.pcb (some b) := by
    rw [←holds.pcb]
    exact (Function.update_eq_self ..).symm
  have after {pending pending' : List (Option (List UInt8))} (same : pending = pending') :
      Linked {s.heard b.recvArg m c wifi addr port with inside := pending} _ _ :=
    linked.touched holds {m with remoteIp := addr,remotePort := port.toNat} b {c with localIp := wifi.localIp addr}
      (fun q => {q with remoteIp := addr,remotePort := port.toNat}) rfl rfl rfl rfl still linked.netif same
  have told : t.serve supply.pcb (.datagram wifi m.pcb addr port data zalloc) =
      t.deliver wifi (endpointOf m b) c addr port data zalloc := by
    change t.receive wifi m.pcb addr port data zalloc = _
    unfold Switchboard.receive
    rw [linked.route holds]
    dsimp only
    rw [show udpAt t.conns (endpointOf m b).espconn = some c from linked.conns ▸ holds.conn]
  unfold Switchboard.deliver at told
  have heard := recv_heard linked holds wifi addr port zalloc data
  by_cases delivers : zalloc = true ∧ data ≠ [] ∧ c.recvCallback = true
  · rw [if_pos delivers] at told
    obtain ⟨rfl,some,callback⟩ := delivers
    rw [if_pos rfl,if_pos ⟨(ofNat_length short).not.mpr some,callback⟩] at heard
    exact .of (.always fun turns => heard) told (after (congrArg _ linked.inside))
  · rw [if_neg delivers] at told
    have quiet : ¬((if zalloc = true then UInt16.ofNat data.length else 0) ≠ 0 ∧ c.recvCallback = true) := by
      rintro ⟨copied,callback⟩
      cases zalloc with
      | false => exact copied rfl
      | true => exact delivers ⟨rfl,(ofNat_length short).not.mp copied,callback⟩
    rw [if_neg quiet] at heard
    exact .of (.always fun turns => heard) told (after linked.inside)

def State.wrote (s : State) (p : Ptr) (m : UdpNode) (b : UdpPcb) (c : UdpConn) (u : UdpMsg) : State :=
  ⟨s.msgs.stored p (.udp {m with ptrbuf := u.ptrbuf,cntr := u.cntr,err := u.err}),s.plinkActive,
    Function.update s.conns m.pespconn (some (.udp {c with state := u.state})),
    Function.update s.pcbs m.pcb (some {b with remoteIp := u.pcbIp,remotePort := u.pcbPort}),u.netifDefault,
    if u.called = 0 then s.inside else none :: s.inside⟩

theorem udpSend_some {turns : Nat} {u : UdpMsg} {code : Int} (linked : Linked s t cells) (holds : Holds s cells p m b c)
    (sent : transmit L opt turns data (UInt16.ofNat data.length) ⟨c.remoteIp,c.remotePort,c.state,c.sentCallback,m.ptrbuf,m.cntr,m.err,
      b.remoteIp,b.remotePort,s.netifDefault,0,0,[],0⟩ = some (u,code)) :
    s.espconnUdpSend turns opt L p data = some (s.wrote p m b c u,.sent code u.sent (u.called ≠ 0)) := by
  unfold State.espconnUdpSend
  rw [linked.udpNode holds]
  dsimp only [Option.bind_eq_bind,Option.bind_some]
  rw [holds.pcb]
  dsimp only [Option.bind_some]
  rw [show s.udpConn m.pespconn = some c from holds.conn]
  have node := linked.node holds.member
  cases opt with
  | send =>
    dsimp only [Option.bind_some,espconnUdpSent]
    rw [sent]
    dsimp only [Option.bind_some]
    rw [storeNode_some node]
    rfl
  | sendto =>
    dsimp only [Option.bind_some,espconnUdpSendto]
    rw [sent]
    dsimp only [Option.bind_some]
    rw [storeNode_some node]
    rfl

theorem udpSend_ends (L : UdpStack) (opt : SendOpt) (linked : Linked s t cells) (holds : Holds s cells p m b c) (some : data ≠ [])
    (short : data.length < 65536) :
    ∃ s', Ends (fun turns => s.espconnUdpSend turns opt L p data) (s',(t.send opt L (endpointOf m b) c data).2) ∧
      Linked s' (t.send opt L (endpointOf m b) c data).1 cells := by
  obtain ⟨v,w,code,ran,sent,same⟩ := transmit_ends L opt ⟨c.remoteIp,c.remotePort,c.state,c.sentCallback,[],0,0,b.remoteIp,
    b.remotePort,s.netifDefault,0,0,[],0⟩ m.ptrbuf m.cntr m.err some short
  rw [linked.netif] at sent
  have field {β : Type} (g : UdpMsg → β) : g (cleared v) = g (cleared w) := congrArg g same
  have state : v.state = w.state := field UdpMsg.state
  have ip : v.pcbIp = w.pcbIp := field UdpMsg.pcbIp
  have port : v.pcbPort = w.pcbPort := field UdpMsg.pcbPort
  have netif : v.netifDefault = w.netifDefault := field UdpMsg.netifDefault
  have datagrams : v.sent = w.sent := field UdpMsg.sent
  have called : v.called = w.called := field UdpMsg.called
  have told : t.send opt L (endpointOf m b) c data =
      ({(t.change m.pespconn fun q => {q with aimIp := w.pcbIp,aimPort := w.pcbPort}).put m.pespconn {c with state := w.state} with
        netifDefault := w.netifDefault,inside := if w.called = 0 then t.inside else none :: t.inside},
        .sent code w.sent (w.called ≠ 0)) := by
    unfold Switchboard.send endpointOf
    dsimp only
    rw [sent]
    rfl
  have after := linked.touched holds {m with ptrbuf := v.ptrbuf,cntr := v.cntr,err := v.err} {b with remoteIp := v.pcbIp,remotePort := v.pcbPort}
    {c with state := v.state} (fun q => {q with aimIp := w.pcbIp,aimPort := w.pcbPort}) rfl rfl rfl (by rw [ip,port]; rfl) rfl netif
    (show (if v.called = 0 then s.inside else none :: s.inside) = if w.called = 0 then t.inside else none :: t.inside by
      rw [called,linked.inside])
  refine ⟨s.wrote p m b c v,?_,?_⟩
  · rw [told,←datagrams,←called]
    exact ran.mono fun turns done => udpSend_some linked holds done
  · rw [told,←state]
    exact after

theorem putConn_same (conn : udpAt s.conns e = some c) : s.putConn e c = s := by
  unfold State.putConn
  rw [←(udpAt_some conn).2,Function.update_eq_self]

theorem put_send (t : Switchboard) (opt : SendOpt) (L : UdpStack) (q : Endpoint) (c c' : UdpConn) (data : List UInt8) :
    (t.put q.espconn c').send opt L q c data = t.send opt L q c data := by
  unfold Switchboard.send Switchboard.put Switchboard.change
  dsimp only
  rw [Function.update_idem]

theorem send_ends {r : State × Outcome} {pnode : Option Ptr} (conn : udpAt s.conns e = some c) (filled : data ≠ [])
    (search : Ends (fun turns => s.espconnFindConnection turns e) pnode)
    (rest : Ends (fun turns => match pnode with
      | none => some (s,.result espconnArg)
      | some p => (s.putConn e (Switchboard.marked opt c)).espconnUdpSend turns opt L p data) r) :
    Ends (fun turns => s.espconnSend turns opt L e (some data)) r := by
  refine (Ends.bind (h := fun turns (pnode : Option Ptr) => match pnode with
      | none => some (s,.result espconnArg)
      | some p => (s.putConn e (Switchboard.marked opt c)).espconnUdpSend turns opt L p data) search rest).mono fun turns ran => ?_
  refine Eq.trans ?_ ran
  have real : ¬(e = null ∨ data.length = 0) := by
    rw [not_or]
    exact ⟨(udpAt_some conn).1,fun empty => filled (List.length_eq_zero_iff.mp empty)⟩
  change State.espconnSend turns opt L s e (some data) = _
  unfold State.espconnSend
  dsimp only
  rw [if_neg real]
  cases State.espconnFindConnection turns s e with
  | none => rfl
  | some pnode =>
    cases pnode with
    | none => rfl
    | some p =>
      dsimp only [Option.bind_eq_bind,Option.bind_some]
      rw [show s.udpConn e = some c from conn]
      cases opt with
      | send => rfl
      | sendto =>
        dsimp only [Option.bind_some,Switchboard.marked]
        rw [putConn_same conn]

theorem send_served {psent : Option (List UInt8)} (linked : Linked s t cells) (there : e = null ∨ (udpAt t.conns e).isSome)
    (short : ∀ data, psent = some data → data.length < 65536) : Served s t supply (.send opt e psent L) := by
  cases psent with
  | none => exact .of (.always fun turns => rfl) rfl linked
  | some data =>
    rcases eq_or_ne e null with rfl | real
    · refine .of (.always fun turns => rfl) ?_ linked
      change t.hand opt L null (some data) = _
      unfold Switchboard.hand
      cases t.find null <;> rfl
    · obtain ⟨c,found⟩ := Option.isSome_iff_exists.mp (there.resolve_left real)
      have conn : udpAt s.conns e = some c := linked.conns ▸ found
      by_cases filled : data = []
      · subst filled
        refine .of (.always fun turns => (if_pos (.inr rfl) : State.espconnSend turns opt L s e (some []) = _)) ?_ linked
        change t.hand opt L e (some []) = _
        unfold Switchboard.hand
        rw [found]
        cases t.find e <;> rfl
      · rcases linked.searched conn with ⟨none,missing⟩ | ⟨p,m,b,holds,rfl,alone⟩
        · refine .of (send_ends conn filled (linked.missed conn none) (.always fun turns => rfl)) ?_ linked
          change t.hand opt L e (some data) = _
          unfold Switchboard.hand
          dsimp only
          rw [missing]
        · have marks : Linked (s.putConn m.pespconn (Switchboard.marked opt c)) (t.put m.pespconn (Switchboard.marked opt c)) cells :=
            linked.rewritten conn _
          have held : Holds (s.putConn m.pespconn (Switchboard.marked opt c)) cells p m b (Switchboard.marked opt c) :=
            ⟨holds.member,holds.node,udpAt_put conn,holds.pcb,holds.arg⟩
          obtain ⟨s',ran,after⟩ := udpSend_ends L opt marks held filled (short data rfl)
          have same := put_send t opt L (endpointOf m b) (Switchboard.marked opt c) (Switchboard.marked opt c) data
          rw [show (endpointOf m b).espconn = m.pespconn from rfl] at same
          rw [same] at ran after
          refine .of (send_ends conn filled (linked.looked holds alone) ran) ?_ after
          change t.hand opt L m.pespconn (some data) = _
          unfold Switchboard.hand
          dsimp only
          rw [linked.find holds]
          dsimp only
          rw [found]
          exact if_neg filled

theorem joins_served (linked : Linked s t cells) (free : supply.Fits s) (there : e = null ∨ connAt t.conns e = some .tcp) :
    Served s t supply (.tcpJoins e) := by
  obtain ⟨k,ran,chain,pnode,live⟩ := linked.append free.1 (.tcp e)
  have here : k.pnode supply.node = .tcp e := by
    rw [pnode]
    exact Function.update_self ..
  have joined := linked.joins free.1 chain pnode live (fun m same => nomatch same) ?_ (fun x b there => there) fun x b there => .inl there
  · have tcp : State.endpoint {s.listed k (cells ++ [supply.node]) with pcbs := s.pcbs} supply.node = none := endpoint_tcp here
    rw [tcp,Option.toList_none,List.append_nil] at joined
    exact .of (ran.bind (.always fun turns => rfl)) rfl joined
  · intro f same
    cases same
    rw [linked.conns]
    exact there

theorem leaves_served (linked : Linked s t cells) (node : s.msgs.Node p) (tcp : s.msgs.pnode p = .tcp e) :
    Served s t supply (.tcpLeaves p) := by
  obtain ⟨behind,ahead,rfl⟩ := List.append_of_mem (linked.all p node.2)
  obtain ⟨k,ran,chain,pnode,live⟩ := linked.cut
  have left := linked.leaves chain pnode live (fun x b there _ => there) fun x b there => ⟨there,?_⟩
  · have same : (behind ++ ahead).filterMap s.endpoint = t.endpoints := by
      rw [←linked.endpoints,List.filterMap_append,List.filterMap_append,List.filterMap_cons,endpoint_tcp tcp]
    rw [same] at left
    exact .of ((ran s.pcbs).map _) rfl left
  · rintro rfl
    obtain ⟨_,m,udp,_⟩ := linked.blocks x b there
    rw [tcp] at udp
    cases udp

theorem writes_served {c : Option Conn} (linked : Linked s t cells) (fits : (Call.writes e c).Fits s t) : Served s t supply (.writes e c) := by
  refine .of (.always fun turns => rfl) rfl (linked.writes (fun p inside m node same => ?_) fun p inside node => ?_)
  · obtain ⟨b,d,holds⟩ := linked.holds inside node
    exact fits.1 _ (linked.shown holds) same
  · exact fits.2 p (linked.node inside) node

theorem call_served {call : Call} (linked : Linked s t cells) (free : supply.Fits s) (fits : call.Fits s t) : Served s t supply call := by
  cases call with
  | create e given zalloc => exact create_served linked free given zalloc fits
  | delete e => exact delete_served linked fits
  | send opt e psent stack => exact send_served linked fits.1 fits.2
  | info e => exact info_served linked fits
  | datagram wifi upcb addr port p zalloc => exact datagram_served linked fits.1 fits.2
  | returns =>
    obtain ⟨pending,rest,inside⟩ := List.exists_cons_of_ne_nil (show t.inside ≠ [] from fits)
    have after : Linked {s with inside := rest} {t with inside := t.inside.tail} cells :=
      ⟨linked.chain,linked.all,linked.own,linked.alone,linked.tcp,linked.blocks,linked.endpoints,linked.conns,linked.netif,by rw [inside]; rfl⟩
    refine .of (.always fun turns => ?_) rfl after
    unfold State.serve
    dsimp only
    rw [linked.inside.trans inside]
  | writes e c => exact writes_served linked fits
  | tcpJoins e => exact joins_served linked free fits
  | tcpLeaves p =>
    obtain ⟨node,e,tcp⟩ := fits
    exact leaves_served linked node tcp

theorem run_served (linked : Linked s t cells) (calls : List Call) : AllServed s t calls := by
  induction calls generalizing s t cells with
  | nil => exact linked.matches
  | cons call rest ih =>
    refine ⟨linked.matches,fun supply free fits => ?_⟩
    obtain ⟨s',cells',ran,after⟩ := call_served linked free fits
    exact ⟨s',ran,ih after⟩

end Served

def State.boot (conns : Ptr → Option Conn) (netif : Option Netif) (pnext : Ptr → Ptr) (pnode : Ptr → Msg) : State :=
  ⟨⟨pnext,pnode,fun _ => false⟩,null,conns,fun _ => none,netif,[]⟩

def Switchboard.boot (conns : Ptr → Option Conn) (netif : Option Netif) : Switchboard := ⟨[],conns,netif,[]⟩

-- Whatever the calls, also of callbacks out of calls: none follows a pointer to what is
-- freed, every datagram is given to the espconn its block was made for, and no node
-- and no block is lost.
theorem endpoints_served (conns : Ptr → Option Conn) (netif : Option Netif) (pnext : Ptr → Ptr) (pnode : Ptr → Msg) (calls : List Call) :
    AllServed (State.boot conns netif pnext pnode) (Switchboard.boot conns netif) calls := by
  have chain : Chain (State.boot conns netif pnext pnode).msgs null [] := Chain.empty _
  refine run_served ⟨chain,?_,?_,?_,?_,?_,rfl,rfl,rfl,rfl⟩ calls
  · intro p live
    cases live
  · exact fun p inside => nomatch inside
  · exact fun p inside => nomatch inside
  · exact fun p inside => nomatch inside
  · exact fun x b block => nomatch block

example : ((State.boot (fun _ => some (.udp ⟨7,0,0,0,.none,0,true,true⟩)) none id fun _ => .tcp null).serve 9 ⟨4,5⟩ (.create 1 true true)).bind
    (fun (s,_) => (s.serve 9 ⟨6,7⟩ (.datagram ⟨1,2,0,0⟩ 5 3 80 [8] true)).bind fun (s,heard) => (s.serve 9 ⟨6,7⟩ (.delete 1)).bind
      fun (s,deleted) => (s.serve 9 ⟨6,7⟩ .returns).map fun (s,_) => (heard,deleted,s.inside,s.msgs.live 4)) =
    some (.received 1 [8,0] 1,.result espconnOk,[],false) := rfl

end NonosLinkLayer.Endpoints
