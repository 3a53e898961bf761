import NonosLinkLayer.Espconn.Endpoints

namespace NonosLinkLayer.Endpoints
open HeapList
open NonosLinkLayer.Connections (espconnIsconn)
open NonosLinkLayer.Espconn (Netif SendOpt UdpMsg UdpStack espconnArg espconnMem espconnOk)
open NonosLinkLayer.Espconn.UdpMsg (transmit)

-- An espconn that was created, and its block: where the last datagram came from, and
-- where espconn_sent was last aimed.
structure Endpoint where
  espconn : Ptr
  pcb : Ptr
  remoteIp : UInt32
  remotePort : Int
  aimIp : UInt32
  aimPort : UInt16

-- UDP without nodes, links and arguments of callbacks: a list of endpoints.
structure Switchboard where
  endpoints : List Endpoint
  conns : Ptr → Option Conn
  netifDefault : Option Netif
  inside : List (Option (List UInt8))

namespace Switchboard

def find (t : Switchboard) (e : Ptr) : Option Endpoint := t.endpoints.find? fun q => q.espconn == e
def route (t : Switchboard) (x : Ptr) : Option Endpoint := t.endpoints.find? fun q => q.pcb == x

def uses (t : Switchboard) (port : Int) (q : Endpoint) : Bool := ((udpAt t.conns q.espconn).map UdpConn.localPort) == some port

def put (t : Switchboard) (e : Ptr) (c : UdpConn) : Switchboard := {t with conns := Function.update t.conns e (some (.udp c))}

def change (t : Switchboard) (e : Ptr) (f : Endpoint → Endpoint) : Switchboard :=
  {t with endpoints := t.endpoints.map fun q => if q.espconn = e then f q else q}

def marked (opt : SendOpt) (c : UdpConn) : UdpConn :=
  match opt with
  | .send => {c with state := .write}
  | .sendto => c

def send (t : Switchboard) (opt : SendOpt) (L : UdpStack) (q : Endpoint) (c : UdpConn) (psent : List UInt8) : Switchboard × Outcome :=
  let u : UdpMsg := ⟨c.remoteIp,c.remotePort,c.state,c.sentCallback,[],0,0,q.aimIp,q.aimPort,t.netifDefault,0,0,[],0⟩
  let (u,code) := (transmit L opt (Pieces.pieces 1472 psent.length + 1) psent (UInt16.ofNat psent.length) u).getD (u,espconnArg)
  let t := (t.change q.espconn fun q => {q with aimIp := u.pcbIp,aimPort := u.pcbPort}).put q.espconn {c with state := u.state}
  ({t with netifDefault := u.netifDefault,inside := if u.called = 0 then t.inside else none :: t.inside},
    .sent code u.sent (u.called ≠ 0))

def create (pcb : Ptr) (t : Switchboard) (e : Ptr) (given zalloc : Bool) : Switchboard × Outcome :=
  match udpAt t.conns e with
  | none => (t,.result espconnArg)
  | some c =>
    if t.endpoints.any (t.uses c.localPort) then (t,.result espconnIsconn)
    else if given ∧ zalloc then ({t with endpoints := t.endpoints ++ [⟨e,pcb,0,0,0,0⟩]},.result espconnOk)
    else (t,.result espconnMem)

def delete (t : Switchboard) (e : Ptr) : Switchboard × Outcome :=
  match t.find e with
  | none => (t,.result espconnArg)
  | some _ => ({t with endpoints := t.endpoints.filter fun q => q.espconn ≠ e},.result espconnOk)

def hand (t : Switchboard) (opt : SendOpt) (L : UdpStack) (e : Ptr) (psent : Option (List UInt8)) : Switchboard × Outcome :=
  match psent with
  | none => (t,.result espconnArg)
  | some psent =>
    match t.find e with
    | none => (t,.result espconnArg)
    | some q =>
      match udpAt t.conns e with
      | none => (t,.result espconnArg)
      | some c => if psent = [] then (t,.result espconnArg) else t.send opt L q (marked opt c) psent

def tell (t : Switchboard) (e : Ptr) : Switchboard × Outcome :=
  match udpAt t.conns e with
  | none => (t,.result espconnArg)
  | some c =>
    match t.find e with
    | none => (t.put e {c with linkCnt := 0},.info espconnArg [])
    | some q => (t.put e {c with linkCnt := 1},.info espconnOk [(0,⟨c.state,q.remotePort,q.remoteIp⟩)])

def deliver (t : Switchboard) (wifi : Wifi) (q : Endpoint) (c : UdpConn) (addr : UInt32) (port : UInt16) (p : List UInt8) (zalloc : Bool) :
    Switchboard × Outcome :=
  let t := (t.change q.espconn fun q => {q with remoteIp := addr,remotePort := port.toNat}).put q.espconn {c with localIp := wifi.localIp addr}
  if zalloc ∧ p ≠ [] ∧ c.recvCallback then
    ({t with inside := some (p ++ [0]) :: t.inside},.received q.espconn (p ++ [0]) (UInt16.ofNat p.length))
  else (t,.nothing)

def receive (t : Switchboard) (wifi : Wifi) (upcb : Ptr) (addr : UInt32) (port : UInt16) (p : List UInt8) (zalloc : Bool) :
    Switchboard × Outcome :=
  match t.route upcb with
  | none => (t,.nothing)
  | some q =>
    match udpAt t.conns q.espconn with
    | none => (t,.nothing)
    | some c => t.deliver wifi q c addr port p zalloc

def serve (pcb : Ptr) (t : Switchboard) : Call → Switchboard × Outcome
  | .create e given zalloc => t.create pcb e given zalloc
  | .delete e => t.delete e
  | .send opt e psent stack => t.hand opt stack e psent
  | .info e => t.tell e
  | .datagram wifi upcb addr port p zalloc => t.receive wifi upcb addr port p zalloc
  | .returns => ({t with inside := t.inside.tail},.nothing)
  | .writes e c => ({t with conns := Function.update t.conns e c},.nothing)
  | .tcpJoins _ => (t,.nothing)
  | .tcpLeaves _ => (t,.nothing)

structure Apart (t : Switchboard) : Prop where
  espconns : (t.endpoints.map Endpoint.espconn).Nodup
  pcbs : (t.endpoints.map Endpoint.pcb).Nodup

end Switchboard

def State.endpoint (s : State) (p : Ptr) : Option Endpoint :=
  match s.msgs.pnode p with
  | .udp m => (s.pcbs m.pcb).map fun b => ⟨m.pespconn,m.pcb,m.remoteIp,m.remotePort,b.remoteIp,b.remotePort⟩
  | .tcp _ => none

def State.listed (s : State) (k : Heap Msg) (cells : List Ptr) : State := {s with msgs := k,plinkActive := cells.headD null}

-- The list has every node that is allocated. A node of UDP is the argument of a block of
-- its own, every block is of a node, and the espconn of a node is there.
structure Linked (s : State) (t : Switchboard) (cells : List Ptr) : Prop where
  chain : Chain s.msgs s.plinkActive cells
  all : ∀ p, s.msgs.live p = true → p ∈ cells
  own : ∀ p ∈ cells, ∀ m, s.msgs.pnode p = .udp m → (∃ c, udpAt s.conns m.pespconn = some c) ∧
    ∃ b, s.pcbs m.pcb = some b ∧ b.recvArg = p
  alone : ∀ p ∈ cells, ∀ q ∈ cells, ∀ m n, s.msgs.pnode p = .udp m → s.msgs.pnode q = .udp n → m.pespconn = n.pespconn → p = q
  tcp : ∀ p ∈ cells, ∀ e, s.msgs.pnode p = .tcp e → e = null ∨ connAt s.conns e = some .tcp
  blocks : ∀ x b, s.pcbs x = some b → b.recvArg ∈ cells ∧ ∃ m, s.msgs.pnode b.recvArg = .udp m ∧ m.pcb = x
  endpoints : cells.filterMap s.endpoint = t.endpoints
  conns : s.conns = t.conns
  netif : s.netifDefault = t.netifDefault
  inside : s.inside = t.inside

def Matches (s : State) (t : Switchboard) : Prop := t.Apart ∧ ∃ cells, Linked s t cells

def Supply.Fits (supply : Supply) (s : State) : Prop := s.msgs.Fresh supply.node ∧ s.pcbs supply.pcb = none

-- An espconn stays there, and of its type, while there is a node for it. lwIP has datagrams
-- only for a block it has. TCP takes its own nodes away.
def Call.Fits (s : State) (t : Switchboard) : Call → Prop
  | .create e _ _ => e = null ∨ (connAt t.conns e).isSome
  | .delete e => e = null ∨ (udpAt t.conns e).isSome
  | .send _ e psent _ => (e = null ∨ (udpAt t.conns e).isSome) ∧ ∀ data, psent = some data → data.length < 65536
  | .info e => e = null ∨ (udpAt t.conns e).isSome
  | .datagram _ upcb _ _ p _ => (s.pcbs upcb).isSome ∧ p.length < 65536
  | .returns => t.inside ≠ []
  | .writes e c => (∀ q ∈ t.endpoints, q.espconn = e → ∃ d, c = some (.udp d)) ∧
    ∀ p, s.msgs.Node p → s.msgs.pnode p = .tcp e → c = some .tcp
  | .tcpJoins e => e = null ∨ connAt t.conns e = some .tcp
  | .tcpLeaves p => s.msgs.Node p ∧ ∃ e, s.msgs.pnode p = .tcp e

section Lists
variable {α : Type} {l : List α} {a : α} {test : α → Bool}

theorem find_alone (member : a ∈ l) (passes : test a = true) (alone : ∀ b ∈ l, test b = true → b = a) : l.find? test = some a := by
  obtain ⟨b,found⟩ := Option.isSome_iff_exists.mp (List.find?_isSome.mpr ⟨a,member,passes⟩)
  rw [found,alone b (List.mem_of_find?_eq_some found) (List.find?_some found)]

end Lists

section Reading
variable {conns : Ptr → Option Conn} {e : Ptr} {c : UdpConn}

theorem udpAt_some (there : udpAt conns e = some c) : e ≠ null ∧ conns e = some (.udp c) := by
  unfold udpAt connAt at there
  by_cases real : e = null
  · simp [real] at there
  · rw [if_neg real] at there
    refine ⟨real,?_⟩
    split at there
    · rename_i d udp
      cases there
      exact udp
    · cases there

theorem connAt_udp (there : udpAt conns e = some c) : connAt conns e = some (.udp c) := by
  obtain ⟨real,udp⟩ := udpAt_some there
  exact (if_neg real).trans udp

theorem udpAt_eq (real : e ≠ null) (udp : conns e = some (.udp c)) : udpAt conns e = some c := by
  unfold udpAt connAt
  rw [if_neg real,udp]

theorem connAt_other {d : Ptr} {new : Option Conn} (other : d ≠ e) : connAt (Function.update conns e new) d = connAt conns d := by
  unfold connAt
  rw [Function.update_of_ne other]

theorem udpAt_other {d : Ptr} {new : Option Conn} (other : d ≠ e) : udpAt (Function.update conns e new) d = udpAt conns d := by
  unfold udpAt
  rw [connAt_other other]

theorem udpAt_put {old : UdpConn} (there : udpAt conns e = some old) : udpAt (Function.update conns e (some (.udp c))) e = some c :=
  udpAt_eq (udpAt_some there).1 (Function.update_self ..)

end Reading

structure Holds (s : State) (cells : List Ptr) (p : Ptr) (m : UdpNode) (b : UdpPcb) (c : UdpConn) : Prop where
  member : p ∈ cells
  node : s.msgs.pnode p = .udp m
  conn : udpAt s.conns m.pespconn = some c
  pcb : s.pcbs m.pcb = some b
  arg : b.recvArg = p

def endpointOf (m : UdpNode) (b : UdpPcb) : Endpoint := ⟨m.pespconn,m.pcb,m.remoteIp,m.remotePort,b.remoteIp,b.remotePort⟩

section Linked
variable {s : State} {t : Switchboard} {cells behind ahead : List Ptr} {p q e x : Ptr} {m n : UdpNode} {b : UdpPcb} {c d : UdpConn}
  {k : Heap Msg} {a : Msg} {r : Endpoint}

theorem endpoint_udp (node : s.msgs.pnode p = .udp m) (pcb : s.pcbs m.pcb = some b) : s.endpoint p = some (endpointOf m b) := by
  unfold State.endpoint
  rw [node]
  dsimp only
  rw [pcb]
  rfl

theorem endpoint_tcp (node : s.msgs.pnode p = .tcp e) : s.endpoint p = none := by
  unfold State.endpoint
  rw [node]

theorem Holds.endpoint (holds : Holds s cells p m b c) : s.endpoint p = some (endpointOf m b) := endpoint_udp holds.node holds.pcb

theorem Holds.real (holds : Holds s cells p m b c) : m.pespconn ≠ null := (udpAt_some holds.conn).1

theorem Linked.node (linked : Linked s t cells) (member : p ∈ cells) : s.msgs.Node p := linked.chain.node member

theorem Linked.holds (linked : Linked s t cells) (member : p ∈ cells) (node : s.msgs.pnode p = .udp m) : ∃ b c, Holds s cells p m b c := by
  obtain ⟨⟨c,conn⟩,b,pcb,arg⟩ := linked.own p member m node
  exact ⟨b,c,member,node,conn,pcb,arg⟩

theorem Linked.backed (linked : Linked s t cells) (inside : r ∈ t.endpoints) : ∃ p m b c, Holds s cells p m b c ∧ r = endpointOf m b := by
  rw [←linked.endpoints] at inside
  obtain ⟨p,member,shown⟩ := List.mem_filterMap.mp inside
  cases node : s.msgs.pnode p with
  | tcp e =>
    rw [endpoint_tcp node] at shown
    cases shown
  | udp m =>
    obtain ⟨b,c,holds⟩ := linked.holds member node
    rw [holds.endpoint] at shown
    exact ⟨p,m,b,c,holds,(Option.some.inj shown).symm⟩

theorem Linked.shown (linked : Linked s t cells) (holds : Holds s cells p m b c) : endpointOf m b ∈ t.endpoints := by
  rw [←linked.endpoints]
  exact List.mem_filterMap.mpr ⟨p,holds.member,holds.endpoint⟩

theorem Linked.one {b' : UdpPcb} {c' : UdpConn} (linked : Linked s t cells) (holds : Holds s cells p m b c)
    (other : Holds s cells q n b' c') (same : n.pespconn = m.pespconn) : n = m ∧ b' = b := by
  obtain rfl := linked.alone q other.member p holds.member n m other.node holds.node same
  have node := other.node.symm.trans holds.node
  cases node
  exact ⟨rfl,Option.some.inj (other.pcb.symm.trans holds.pcb)⟩

theorem Linked.find (linked : Linked s t cells) (holds : Holds s cells p m b c) : t.find m.pespconn = some (endpointOf m b) := by
  refine find_alone (linked.shown holds) (beq_self_eq_true _) ?_
  intro r inside same
  obtain ⟨q,n,b',c',other,rfl⟩ := linked.backed inside
  obtain ⟨rfl,rfl⟩ := linked.one holds other (eq_of_beq same)
  rfl

theorem Linked.route (linked : Linked s t cells) (holds : Holds s cells p m b c) : t.route m.pcb = some (endpointOf m b) := by
  refine find_alone (linked.shown holds) (beq_self_eq_true _) ?_
  intro r inside same
  obtain ⟨q,n,b',c',other,rfl⟩ := linked.backed inside
  have pcb : n.pcb = m.pcb := eq_of_beq same
  have block := other.pcb
  rw [pcb,holds.pcb] at block
  obtain rfl := Option.some.inj block
  have node := other.node
  rw [←other.arg,holds.arg,holds.node] at node
  cases node
  rfl

theorem Linked.searched (linked : Linked s t cells) (conn : udpAt s.conns e = some c) :
    ((∀ p ∈ cells, (s.msgs.pnode p).pespconn ≠ e) ∧ t.find e = none) ∨
      ∃ p m b, Holds s cells p m b c ∧ m.pespconn = e ∧ ∀ q ∈ cells, (s.msgs.pnode q).pespconn = e → q = p := by
  by_cases some : ∃ p ∈ cells, (s.msgs.pnode p).pespconn = e
  · obtain ⟨p,member,same⟩ := some
    have udp (q : Ptr) (inside : q ∈ cells) (here : (s.msgs.pnode q).pespconn = e) : ∃ n, s.msgs.pnode q = .udp n ∧ n.pespconn = e := by
      cases node : s.msgs.pnode q with
      | udp n =>
        rw [node] at here
        exact ⟨n,rfl,here⟩
      | tcp f =>
        rw [node] at here
        change f = e at here
        rcases linked.tcp q inside f node with none | tcp
        · exact absurd (here.symm.trans none) (udpAt_some conn).1
        · rw [here,connAt_udp conn] at tcp
          cases tcp
    obtain ⟨m,node,rfl⟩ := udp p member same
    obtain ⟨b,c',holds⟩ := linked.holds member node
    obtain rfl : c' = c := Option.some.inj (holds.conn.symm.trans conn)
    refine .inr ⟨p,m,b,holds,rfl,fun q inside here => ?_⟩
    obtain ⟨n,other,same⟩ := udp q inside here
    exact linked.alone q inside p member n m other node same
  · have none (q : Ptr) (inside : q ∈ cells) : (s.msgs.pnode q).pespconn ≠ e := fun here => some ⟨q,inside,here⟩
    refine .inl ⟨none,List.find?_eq_none.mpr fun r inside same => ?_⟩
    obtain ⟨q,n,b,c',holds,rfl⟩ := linked.backed inside
    refine none q holds.member ?_
    rw [holds.node]
    exact eq_of_beq same

theorem Linked.apart (linked : Linked s t cells) : t.Apart := by
  have one : cells.Pairwise fun p q => ∀ r, s.endpoint p = some r → ∀ r', s.endpoint q = some r' → r.espconn ≠ r'.espconn ∧ r.pcb ≠ r'.pcb := by
    refine linked.chain.apart.imp_of_mem fun {p q} inside other apart r shown r' shown' => ?_
    cases node : s.msgs.pnode p with
    | tcp e =>
      rw [endpoint_tcp node] at shown
      cases shown
    | udp m =>
      cases node' : s.msgs.pnode q with
      | tcp e =>
        rw [endpoint_tcp node'] at shown'
        cases shown'
      | udp n =>
        obtain ⟨b,c,holds⟩ := linked.holds inside node
        obtain ⟨b',c',holds'⟩ := linked.holds other node'
        rw [holds.endpoint] at shown
        rw [holds'.endpoint] at shown'
        cases shown
        cases shown'
        refine ⟨fun same => apart (linked.alone p inside q other m n node node' same),fun same => apart ?_⟩
        have block := holds'.pcb
        rw [←show m.pcb = n.pcb from same,holds.pcb] at block
        obtain rfl := Option.some.inj block
        exact holds.arg.symm.trans holds'.arg
  have pairs := List.pairwise_filterMap.mpr one
  rw [linked.endpoints] at pairs
  exact ⟨List.pairwise_map.mpr (pairs.imp And.left),List.pairwise_map.mpr (pairs.imp And.right)⟩

theorem Linked.matches (linked : Linked s t cells) : Matches s t := ⟨linked.apart,cells,linked⟩

theorem Linked.touched {pcbs : Ptr → Option UdpPcb} {netif netif' : Option Netif} {pending pending' : List (Option (List UInt8))}
    (linked : Linked s t cells) (holds : Holds s cells p m b c) (m' : UdpNode) (b' : UdpPcb) (c' : UdpConn) (f : Endpoint → Endpoint)
    (espconn : m'.pespconn = m.pespconn) (pcb : m'.pcb = m.pcb) (arg : b'.recvArg = b.recvArg)
    (becomes : f (endpointOf m b) = endpointOf m' b') (written : pcbs = Function.update s.pcbs m.pcb (some b'))
    (routed : netif = netif') (same : pending = pending') :
    Linked ⟨s.msgs.stored p (.udp m'),s.plinkActive,Function.update s.conns m.pespconn (some (.udp c')),pcbs,netif,pending⟩
      ⟨(t.change m.pespconn f).endpoints,Function.update t.conns m.pespconn (some (.udp c')),netif',pending'⟩ cells := by
  subst written
  have here : (s.msgs.stored p (.udp m')).pnode p = .udp m' := Function.update_self ..
  have there (q : Ptr) (other : q ≠ p) : (s.msgs.stored p (.udp m')).pnode q = s.msgs.pnode q := Function.update_of_ne other ..
  -- Where the written node shows, and where another one does.
  have split (q : Ptr) (n : UdpNode) (inside : q ∈ cells) (node : (s.msgs.stored p (.udp m')).pnode q = .udp n) :
      (q = p ∧ n = m') ∨ (q ≠ p ∧ ∃ b'' d, Holds s cells q n b'' d) := by
    by_cases same : q = p
    · rw [same,here] at node
      cases node
      exact .inl ⟨same,rfl⟩
    · rw [there q same] at node
      exact .inr ⟨same,linked.holds inside node⟩
  have elsewhere (q : Ptr) (n : UdpNode) (b'' : UdpPcb) (d : UdpConn) (other : q ≠ p) (holds' : Holds s cells q n b'' d) :
      n.pespconn ≠ m.pespconn ∧ n.pcb ≠ m.pcb := by
    refine ⟨fun same => other (linked.alone q holds'.member p holds.member n m holds'.node holds.node same),fun same => other ?_⟩
    have block := holds'.pcb
    rw [same,holds.pcb] at block
    obtain rfl := Option.some.inj block
    exact holds'.arg.symm.trans holds.arg
  refine ⟨linked.chain.stored p _,linked.all,?_,?_,?_,?_,?_,?_,routed,same⟩
  · intro q inside n node
    rcases split q n inside node with ⟨rfl,rfl⟩ | ⟨other,b'',d,holds'⟩
    · refine ⟨⟨c',?_⟩,b',?_,arg.trans holds.arg⟩
      · rw [espconn]
        exact udpAt_put holds.conn
      · rw [pcb]
        exact Function.update_self ..
    · obtain ⟨conn,block⟩ := elsewhere q n b'' d other holds'
      exact ⟨⟨d,(udpAt_other conn).trans holds'.conn⟩,b'',(Function.update_of_ne block ..).trans holds'.pcb,holds'.arg⟩
  · intro q inside q' inside' n n' node node' same
    rcases split q n inside node with ⟨rfl,rfl⟩ | ⟨other,b'',d,holds'⟩
    · rcases split q' n' inside' node' with ⟨rfl,rfl⟩ | ⟨other',b₂,d₂,holds₂⟩
      · rfl
      · exact absurd (same.symm.trans espconn) (elsewhere q' n' b₂ d₂ other' holds₂).1
    · rcases split q' n' inside' node' with ⟨rfl,rfl⟩ | ⟨other',b₂,d₂,holds₂⟩
      · exact absurd (same.trans espconn) (elsewhere q n b'' d other holds').1
      · exact linked.alone q inside q' inside' n n' holds'.node holds₂.node same
  · intro q inside e node
    have other : q ≠ p := by
      rintro rfl
      rw [here] at node
      cases node
    rw [there q other] at node
    refine (linked.tcp q inside e node).imp_right fun tcp => ?_
    have apart : e ≠ m.pespconn := by
      rintro rfl
      rw [connAt_udp holds.conn] at tcp
      cases tcp
    exact (connAt_other apart).trans tcp
  · intro x b'' block
    dsimp only at block
    by_cases same : x = m.pcb
    · subst same
      rw [Function.update_self] at block
      obtain rfl := Option.some.inj block
      rw [arg,holds.arg]
      exact ⟨holds.member,m',here,pcb⟩
    · rw [Function.update_of_ne same] at block
      obtain ⟨inside,n,node,rfl⟩ := linked.blocks x b'' block
      have other : b''.recvArg ≠ p := by
        intro equal
        rw [equal,holds.node] at node
        cases node
        exact same rfl
      exact ⟨inside,n,(there _ other).trans node,rfl⟩
  · rw [Switchboard.change,←linked.endpoints,List.map_filterMap]
    refine List.filterMap_congr fun q inside => ?_
    by_cases same : q = p
    · subst same
      rw [holds.endpoint,endpoint_udp here (b := b') (by rw [pcb]; exact Function.update_self ..),Option.map_some,
        if_pos (show (endpointOf m b).espconn = m.pespconn from rfl),becomes]
    · cases node : s.msgs.pnode q with
      | tcp e => rw [endpoint_tcp node,endpoint_tcp ((there q same).trans node),Option.map_none]
      | udp n =>
        obtain ⟨b'',d,holds'⟩ := linked.holds inside node
        obtain ⟨conn,block⟩ := elsewhere q n b'' d same holds'
        rw [holds'.endpoint,Option.map_some,if_neg (show (endpointOf n b'').espconn ≠ m.pespconn from conn)]
        exact endpoint_udp ((there q same).trans node) ((Function.update_of_ne block ..).trans holds'.pcb)
  · rw [linked.conns]

theorem Linked.writes {c : Option Conn} (linked : Linked s t cells)
    (kept : ∀ p ∈ cells, ∀ m, s.msgs.pnode p = .udp m → m.pespconn = e → ∃ d, c = some (.udp d))
    (left : ∀ p ∈ cells, s.msgs.pnode p = .tcp e → c = some .tcp) :
    Linked {s with conns := Function.update s.conns e c} {t with conns := Function.update t.conns e c} cells := by
  refine ⟨linked.chain,linked.all,?_,linked.alone,?_,linked.blocks,linked.endpoints,?_,linked.netif,linked.inside⟩
  · intro p inside m node
    obtain ⟨⟨d,conn⟩,block⟩ := linked.own p inside m node
    refine ⟨?_,block⟩
    by_cases same : m.pespconn = e
    · obtain ⟨new,rfl⟩ := kept p inside m node same
      rw [←same]
      exact ⟨new,udpAt_put conn⟩
    · exact ⟨d,(udpAt_other same).trans conn⟩
  · intro p inside f node
    refine (linked.tcp p inside f node).imp_right fun tcp => ?_
    by_cases same : f = e
    · subst same
      have real : f ≠ null := by
        rintro rfl
        cases tcp
      rw [left p inside node]
      exact (if_neg real).trans (Function.update_self ..)
    · exact (connAt_other same).trans tcp
  · rw [linked.conns]

theorem Linked.joins {pcbs : Ptr → Option UdpPcb} (linked : Linked s t cells) (fresh : s.msgs.Fresh p)
    (chain : Chain k ((cells ++ [p]).headD null) (cells ++ [p])) (pnode : k.pnode = (s.msgs.alloc p a).pnode)
    (live : k.live = (s.msgs.alloc p a).live)
    (udp : ∀ m, a = .udp m → (∃ c, udpAt s.conns m.pespconn = some c) ∧ (∀ q ∈ cells, (s.msgs.pnode q).pespconn ≠ m.pespconn) ∧
      ∃ b, pcbs m.pcb = some b ∧ b.recvArg = p)
    (tcp : ∀ e, a = .tcp e → e = null ∨ connAt s.conns e = some .tcp)
    (kept : ∀ x b, s.pcbs x = some b → pcbs x = some b)
    (blocks : ∀ x b, pcbs x = some b → s.pcbs x = some b ∨ (b.recvArg = p ∧ ∃ m, a = .udp m ∧ m.pcb = x)) :
    Linked {s.listed k (cells ++ [p]) with pcbs}
      {t with endpoints := t.endpoints ++ (State.endpoint {s.listed k (cells ++ [p]) with pcbs} p).toList} (cells ++ [p]) := by
  have off := (linked.chain.alloc fresh a).1
  have here : k.pnode p = a := by
    rw [pnode]
    exact Function.update_self ..
  have there (q : Ptr) (inside : q ∈ cells) : k.pnode q = s.msgs.pnode q := by
    rw [pnode]
    refine Function.update_of_ne ?_ ..
    rintro rfl
    exact off inside
  have shown (q : Ptr) (inside : q ∈ cells) : State.endpoint {s.listed k (cells ++ [p]) with pcbs} q = s.endpoint q := by
    cases node : s.msgs.pnode q with
    | tcp e => rw [endpoint_tcp node,endpoint_tcp ((there q inside).trans node)]
    | udp n =>
      obtain ⟨b,c,holds⟩ := linked.holds inside node
      rw [holds.endpoint]
      exact endpoint_udp ((there q inside).trans node) (kept _ _ holds.pcb)
  have split (q : Ptr) (inside : q ∈ cells ++ [p]) : q ∈ cells ∨ q = p := by simpa using inside
  refine ⟨chain,?_,?_,?_,?_,?_,?_,linked.conns,linked.netif,linked.inside⟩
  · intro q alive
    change k.live q = true at alive
    rw [live] at alive
    by_cases same : q = p
    · simp [same]
    · exact List.mem_append_left _ (linked.all q ((Function.update_of_ne same ..).symm.trans alive))
  · intro q inside m node
    rcases split q inside with old | rfl
    · obtain ⟨conn,b,pcb,arg⟩ := linked.own q old m ((there q old).symm.trans node)
      exact ⟨conn,b,kept _ _ pcb,arg⟩
    · obtain ⟨conn,_,block⟩ := udp m (here.symm.trans node)
      exact ⟨conn,block⟩
  · intro q inside q' inside' m n node node' same
    rcases split q inside with old | rfl
    · rcases split q' inside' with old' | rfl
      · exact linked.alone q old q' old' m n ((there q old).symm.trans node) ((there q' old').symm.trans node') same
      · refine absurd ?_ ((udp n (here.symm.trans node')).2.1 q old)
        rw [←there q old,show k.pnode q = .udp m from node]
        exact same
    · rcases split q' inside' with old' | rfl
      · refine absurd ?_ ((udp m (here.symm.trans node)).2.1 q' old')
        rw [←there q' old',show k.pnode q' = .udp n from node']
        exact same.symm
      · rfl
  · intro q inside e node
    rcases split q inside with old | rfl
    · exact linked.tcp q old e ((there q old).symm.trans node)
    · exact tcp e (here.symm.trans node)
  · intro x b block
    rcases blocks x b block with old | ⟨rfl,m,rfl,same⟩
    · obtain ⟨inside,m,node,same⟩ := linked.blocks x b old
      exact ⟨List.mem_append_left _ inside,m,(there _ inside).trans node,same⟩
    · exact ⟨List.mem_append_right _ (List.mem_singleton_self _),m,here,same⟩
  · rw [List.filterMap_append,List.filterMap_congr shown,linked.endpoints]
    refine congrArg _ ?_
    rw [List.filterMap_cons,List.filterMap_nil]
    cases State.endpoint {s.listed k (cells ++ [p]) with pcbs} p <;> rfl

theorem Linked.leaves {pcbs : Ptr → Option UdpPcb} (linked : Linked s t (behind ++ p :: ahead))
    (chain : Chain k ((behind ++ ahead).headD null) (behind ++ ahead)) (pnode : k.pnode = s.msgs.pnode) (live : k.live = s.msgs.live)
    (kept : ∀ x b, s.pcbs x = some b → b.recvArg ≠ p → pcbs x = some b)
    (blocks : ∀ x b, pcbs x = some b → s.pcbs x = some b ∧ b.recvArg ≠ p) :
    Linked {s.listed (k.freed p) (behind ++ ahead) with pcbs}
      {t with endpoints := (behind ++ ahead).filterMap s.endpoint} (behind ++ ahead) := by
  have off := linked.chain.foreign_rest
  have old (q : Ptr) (inside : q ∈ behind ++ ahead) : q ∈ behind ++ p :: ahead := by
    rcases List.mem_append.mp inside with member | member
    · exact List.mem_append_left _ member
    · exact List.mem_append_right _ (List.mem_cons_of_mem _ member)
  have other (q : Ptr) (inside : q ∈ behind ++ ahead) : q ≠ p := by
    rintro rfl
    exact off inside
  have there (q : Ptr) : (k.freed p).pnode q = s.msgs.pnode q := by rw [Heap.freed_pnode,pnode]
  refine ⟨chain.freed off,?_,?_,?_,?_,?_,?_,linked.conns,linked.netif,linked.inside⟩
  · intro q alive
    have apart : q ≠ p := by
      rintro rfl
      change Function.update k.live q false q = true at alive
      rw [Function.update_self] at alive
      cases alive
    have before : s.msgs.live q = true := by
      rw [←live]
      exact (Function.update_of_ne apart ..).symm.trans alive
    simpa [apart] using linked.all q before
  · intro q inside m node
    obtain ⟨conn,b,pcb,arg⟩ := linked.own q (old q inside) m ((there q).symm.trans node)
    exact ⟨conn,b,kept _ _ pcb (by rw [arg]; exact other q inside),arg⟩
  · intro q inside q' inside' m n node node' same
    exact linked.alone q (old q inside) q' (old q' inside') m n ((there q).symm.trans node) ((there q').symm.trans node') same
  · exact fun q inside e node => linked.tcp q (old q inside) e ((there q).symm.trans node)
  · intro x b block
    obtain ⟨before,apart⟩ := blocks x b block
    obtain ⟨inside,m,node,same⟩ := linked.blocks x b before
    exact ⟨by simpa [apart] using inside,m,(there _).trans node,same⟩
  · refine List.filterMap_congr fun q inside => ?_
    cases node : s.msgs.pnode q with
    | tcp e => rw [endpoint_tcp node,endpoint_tcp ((there q).trans node)]
    | udp n =>
      obtain ⟨b,c,holds⟩ := linked.holds (old q inside) node
      rw [holds.endpoint]
      exact endpoint_udp ((there q).trans node) (kept _ _ holds.pcb (by rw [holds.arg]; exact other q inside))

end Linked

end NonosLinkLayer.Endpoints
