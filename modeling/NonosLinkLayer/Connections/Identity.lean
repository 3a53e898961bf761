import NonosLinkLayer.Connections.Net

namespace NonosLinkLayer.Connections
open HeapList Turns

structure FourTuple where
  localIp : UInt32
  localPort : UInt16
  remoteIp : UInt32
  remotePort : UInt16
deriving DecidableEq

def TcpPcb.tuple (pcb : TcpPcb) : FourTuple := ⟨pcb.localIp,pcb.localPort,pcb.remoteIp,pcb.remotePort⟩

def Pcbs.Carries (s : Pcbs) (x : Ptr) (t : FourTuple) : Prop := s.live x = true ∧ (s.pcb x).tuple = t

def SameFar (a b : FourTuple) : Prop := a.remoteIp = b.remoteIp ∧ a.remotePort = b.remotePort

namespace EspconnMsg

-- espconn_client_connect has written both ends of a client's connection, and
-- espconn_tcp_accept the far end of a server's.
def Written (m : EspconnMsg) : Prop :=
  if m.preverse = null then m.localIp ≠ 0 ∧ UInt16.ofNat m.localPort.toNat ≠ 0
  else m.remoteIp ≠ 0 ∧ UInt16.ofInt m.remotePort ≠ 0

instance (m : EspconnMsg) : Decidable m.Written := by unfold Written; infer_instance

structure Keeps (m : EspconnMsg) (t : FourTuple) : Prop where
  far : m.Written → m.remoteIp = t.remoteIp ∧ m.remotePort = (t.remotePort.toNat : Int)
  near : m.Written → m.preverse = null → m.localIp = t.localIp ∧ m.localPort = t.localPort.toUInt32

end EspconnMsg

section Search
variable {α : Type} {test : α → Bool} {own : α → Prop} {l : List α}

def Ahead (test : α → Bool) (own : α → Prop) (l : List α) : Prop :=
  ∀ front x back, l = front ++ x :: back → test x = true → ¬ own x → ∃ y ∈ front, test y = true ∧ own y

theorem find_ahead : (∀ x, l.find? test = some x → own x) ↔ Ahead test own l := by
  constructor
  · rintro always front x back rfl passes other
    cases early : front.find? test with
    | some y =>
      have found : (front ++ x :: back).find? test = some y := by rw [List.find?_append,early]; rfl
      exact ⟨y,List.mem_of_find?_eq_some early,List.find?_some early,always y found⟩
    | none =>
      have found : (front ++ x :: back).find? test = some x := by
        rw [List.find?_append,early,List.find?_cons_of_pos passes]
        rfl
      exact absurd (always x found) other
  · intro ahead x found
    obtain ⟨passes,front,back,split,before⟩ := List.find?_eq_some_iff_append.mp found
    by_contra other
    obtain ⟨y,member,passes',_⟩ := ahead front x back split passes other
    have fails := before y member
    rw [passes'] at fails
    cases fails

end Search

theorem search_find (s : Pcbs) (test : TcpPcb → Bool) :
    s.search test = ((s.active ++ s.tw).find? fun x => test (s.pcb x)).getD null := by
  unfold Pcbs.search
  rw [List.find?_append]
  cases s.active.find? fun x => test (s.pcb x) with
  | some x => rfl
  | none =>
    dsimp only [Option.none_or]
    cases s.tw.find? fun x => test (s.pcb x) <;> rfl

-- What the search for a block needs: a block taken before the ends are written must
-- still be the one, and in front of other blocks with the far end of a server's
-- connection there must be its own.
structure Pcbs.Tells (s : Pcbs) (m : EspconnMsg) (t : FourTuple) : Prop where
  unwritten : ¬ m.Written → m.pcb = null ∨ s.Carries m.pcb t
  far : m.Written → m.preverse ≠ null → ∀ front x back, s.active ++ s.tw = front ++ x :: back →
    SameFar (s.pcb x).tuple t → (s.pcb x).tuple ≠ t → ∃ y ∈ front, (s.pcb y).tuple = t

section Current
variable {s : Pcbs} {m : EspconnMsg} {t : FourTuple}

theorem search_carries (live : ∀ x ∈ s.active ++ s.tw, x ≠ null ∧ s.live x = true) (test : TcpPcb → Bool) :
    (s.search test = null ∨ s.Carries (s.search test) t) ↔
      Ahead (fun x => test (s.pcb x)) (fun x => (s.pcb x).tuple = t) (s.active ++ s.tw) := by
  rw [search_find,←find_ahead]
  cases found : (s.active ++ s.tw).find? fun x => test (s.pcb x) with
  | none => exact iff_of_true (.inl rfl) (fun x same => by cases same)
  | some x =>
    have here := live x (List.mem_of_find?_eq_some found)
    constructor
    · rintro (missing | carries) y same
      · exact absurd missing here.1
      · cases same
        exact carries.2
    · intro own
      exact .inr ⟨here.2,own x rfl⟩

theorem port_roundtrip (port : UInt16) : UInt16.ofNat port.toUInt32.toNat = port := by
  simp

theorem ofInt_port (port : UInt16) : UInt16.ofInt (port.toNat : Int) = port := by
  unfold UInt16.ofInt
  rw [Int.emod_eq_of_lt (Int.natCast_nonneg _) (by exact_mod_cast port.toNat_lt),Int.toNat_natCast,UInt16.ofNat_toNat]

-- All four are compared for a client, so that what is found is its own.
theorem client_carries (live : ∀ x ∈ s.active ++ s.tw, x ≠ null ∧ s.live x = true) (keeps : m.Keeps t) (written : m.Written)
    (client : m.preverse = null) : espconnFindCurrentPcb s m = null ∨ s.Carries (espconnFindCurrentPcb s m) t := by
  have far := keeps.far written
  have near := keeps.near written client
  rw [EspconnMsg.Written,if_pos client] at written
  unfold espconnFindCurrentPcb
  dsimp only
  rw [if_pos client,if_neg (not_or.mpr written)]
  refine (search_carries live _).mpr fun front x back split passes other => absurd ?_ other
  simp only [Bool.and_eq_true,beq_iff_eq] at passes
  obtain ⟨⟨⟨remotePort,remoteIp⟩,localPort⟩,localIp⟩ := passes
  rw [far.2,ofInt_port] at remotePort
  rw [near.2,port_roundtrip] at localPort
  rw [far.1] at remoteIp
  rw [near.1] at localIp
  unfold TcpPcb.tuple
  rw [remotePort,remoteIp,localPort,localIp]

-- For a server's the far end only.
theorem server_carries (live : ∀ x ∈ s.active ++ s.tw, x ≠ null ∧ s.live x = true) (keeps : m.Keeps t) (written : m.Written)
    (server : m.preverse ≠ null) : (espconnFindCurrentPcb s m = null ∨ s.Carries (espconnFindCurrentPcb s m) t) ↔
      ∀ front x back, s.active ++ s.tw = front ++ x :: back → SameFar (s.pcb x).tuple t → (s.pcb x).tuple ≠ t →
        ∃ y ∈ front, (s.pcb y).tuple = t := by
  have far := keeps.far written
  rw [EspconnMsg.Written,if_neg server] at written
  unfold espconnFindCurrentPcb
  dsimp only
  rw [if_neg server,if_neg (not_or.mpr written),search_carries live]
  have test (x : Ptr) : ((s.pcb x).remotePort == UInt16.ofInt m.remotePort && (s.pcb x).remoteIp == m.remoteIp) = true ↔
      SameFar (s.pcb x).tuple t := by
    rw [far.2,ofInt_port,far.1,Bool.and_eq_true,beq_iff_eq,beq_iff_eq]
    exact And.comm
  unfold Ahead
  simp only [test]
  refine forall₃_congr fun front x back => forall₃_congr fun _ same other => exists_congr fun y => and_congr_right fun _ => ?_
  exact ⟨And.right,fun own => ⟨own ▸ ⟨rfl,rfl⟩,own⟩⟩

theorem current_tells (live : ∀ x ∈ s.active ++ s.tw, x ≠ null ∧ s.live x = true) (keeps : m.Keeps t) :
    (espconnFindCurrentPcb s m = null ∨ s.Carries (espconnFindCurrentPcb s m) t) ↔ s.Tells m t := by
  by_cases written : m.Written
  · by_cases client : m.preverse = null
    · exact iff_of_true (client_carries live keeps written client)
        ⟨fun unwritten => absurd written unwritten,fun _ server => absurd client server⟩
    · rw [server_carries live keeps written client]
      exact ⟨fun far => ⟨fun unwritten => absurd written unwritten,fun _ _ => far⟩,fun tells => tells.far written client⟩
  · have early : espconnFindCurrentPcb s m = m.pcb := by
      have fails := written
      unfold espconnFindCurrentPcb
      unfold EspconnMsg.Written at fails
      dsimp only
      split at fails
      · rename_i client
        rw [if_pos client,if_pos (not_and_or.mp fails |>.imp not_not.mp not_not.mp)]
      · rename_i server
        rw [if_neg server,if_pos (not_and_or.mp fails |>.imp not_not.mp not_not.mp)]
    rw [early]
    exact ⟨fun own => ⟨fun _ => own,fun yes => absurd yes written⟩,fun tells => tells.unwritten written⟩

end Current

theorem Net.findNode_ends {s : Net} {cells : List Ptr} (chain : Chain s.msgs s.plinkActive cells) (test : EspconnMsg → Bool) :
    Ends (fun turns => s.findNode turns test) (cells.find? fun p => test (s.msgs.pnode p)) := by
  have walked := chain.walkNodes (findTurn test) none
  rw [walked_find] at walked
  exact walked

namespace Net

-- plink_active is a list, the lists of lwIP have blocks that are there, and a
-- connection that was accepted has an espconn of its own, which does not listen.
structure Sound (s : Net) (cells : List Ptr) : Prop where
  chain : Chain s.msgs s.plinkActive cells
  live : ∀ x ∈ s.pcbs.active ++ s.pcbs.tw, x ≠ null ∧ s.pcbs.live x = true
  spare : ∀ p ∈ cells, (s.msgs.pnode p).preverse ≠ null → ∀ server ∈ s.pserverList, server.pespconn ≠ (s.msgs.pnode p).pespconn

def Listens (s : Net) (e : Ptr) : Prop :=
  e ≠ null ∧ (∃ server ∈ s.pserverList, server.pespconn = e) ∧ ∃ c, s.espconn e = some c ∧ c.isTcp = true

def Faces (s : Net) (e p : Ptr) : Prop := ∃ tcp, s.protoTcp e = some tcp ∧
  (s.msgs.pnode p).remoteIp = tcp.remoteIp ∧ (s.msgs.pnode p).remotePort = tcp.remotePort

def Serves (s : Net) (e : Ptr) (cells : List Ptr) (p : Ptr) : Prop := p ∈ cells ∧ (s.msgs.pnode p).preverse = e ∧ s.Faces e p

-- What a listening espconn needs: it must not have a connection of its own besides,
-- and in front of other nodes with the far end it tells there must be one of its own.
structure Singles (s : Net) (e : Ptr) (cells : List Ptr) : Prop where
  unused : ∀ p ∈ cells, (s.msgs.pnode p).pespconn ≠ e
  far : ∀ tcp, s.protoTcp e = some tcp → tcp.remoteIp ≠ 0 → tcp.remotePort ≠ 0 → ∀ front p back, cells = front ++ p :: back →
    s.Faces e p → (s.msgs.pnode p).preverse ≠ e → ∃ q ∈ front, s.Faces e q ∧ (s.msgs.pnode q).preverse = e

section Finding
variable {s : Net} {cells : List Ptr} {e : Ptr}

theorem Listens.tcp (listens : s.Listens e) : ∃ c tcp, s.espconn e = some c ∧ c.tcp = some tcp ∧ s.protoTcp e = tcp := by
  obtain ⟨_,_,c,block,isTcp⟩ := listens
  unfold protoTcp
  rw [block]
  unfold Espconn.isTcp at isTcp
  unfold Espconn.tcp
  dsimp only [Option.bind_eq_bind,Option.bind_some]
  split at isTcp
  · rename_i tcp proto
    refine ⟨c,tcp,rfl,?_,?_⟩ <;> rw [proto]
    rfl
  · cases isTcp

-- Once no node has the espconn itself, the search is one for the far end it tells.
theorem find_far (chain : Chain s.msgs s.plinkActive cells) (listens : s.Listens e)
    (unused : ∀ p ∈ cells, (s.msgs.pnode p).pespconn ≠ e) :
    Ends (fun turns => s.espconnFindConnection turns e) (match s.protoTcp e with
      | none => none
      | some tcp => if tcp.remoteIp = 0 ∨ tcp.remotePort = 0 then none
        else cells.find? fun p => (s.msgs.pnode p).remoteIp == tcp.remoteIp && (s.msgs.pnode p).remotePort == tcp.remotePort) := by
  obtain ⟨c,tcp,block,points,proto⟩ := listens.tcp
  obtain ⟨real,⟨server,member,same⟩,_⟩ := listens
  have own : cells.find? (fun p => (s.msgs.pnode p).pespconn == e) = none :=
    List.find?_eq_none.mpr fun p member => by simpa using unused p member
  have first := findNode_ends chain fun m => m.pespconn == e
  rw [own] at first
  have listed : s.pserverList.any (fun server => server.pespconn == e) = true :=
    List.any_eq_true.mpr ⟨server,member,beq_iff_eq.mpr same⟩
  unfold espconnFindConnection
  simp only [if_neg real]
  refine first.bind ?_
  dsimp only [Option.isSome_none]
  simp only [Bool.false_eq_true,if_false,if_pos listed,block,points,proto,Option.bind_eq_bind,Option.bind_some]
  cases tcp with
  | none => exact .done _
  | some tcp =>
    dsimp only
    split
    · exact .done _
    · exact findNode_ends chain fun m => m.remoteIp == tcp.remoteIp && m.remotePort == tcp.remotePort

theorem find_own (chain : Chain s.msgs s.plinkActive cells) (real : e ≠ null) {p : Ptr}
    (found : cells.find? (fun p => (s.msgs.pnode p).pespconn == e) = some p) :
    Ends (fun turns => s.espconnFindConnection turns e) (some p) := by
  have first := findNode_ends chain fun m => m.pespconn == e
  rw [found] at first
  unfold espconnFindConnection
  simp only [if_neg real]
  exact first.bind (.done _)

theorem find_singles (sound : s.Sound cells) (listens : s.Listens e) :
    ∃ found, Ends (fun turns => s.espconnFindConnection turns e) found ∧
      ((∀ p, found = some p → s.Serves e cells p) ↔ s.Singles e cells) := by
  cases own : cells.find? (fun p => (s.msgs.pnode p).pespconn == e) with
  | some p =>
    obtain ⟨real,⟨server,listed,same⟩,_⟩ := listens
    have member := List.mem_of_find?_eq_some own
    have used : (s.msgs.pnode p).pespconn = e := by simpa using List.find?_some own
    refine ⟨some p,find_own sound.chain real own,iff_of_false (fun serves => ?_) fun singles => singles.unused p member used⟩
    have accepted := (serves p rfl).2.1
    exact sound.spare p member (accepted ▸ real) server listed (same.trans used.symm)
  | none =>
    have unused : ∀ p ∈ cells, (s.msgs.pnode p).pespconn ≠ e := fun p member => by
      simpa using List.find?_eq_none.mp own p member
    refine ⟨_,find_far sound.chain listens unused,?_⟩
    cases proto : s.protoTcp e with
    | none =>
      refine iff_of_true (fun p same => by cases same) ⟨unused,fun tcp told => ?_⟩
      rw [proto] at told
      cases told
    | some tcp =>
      dsimp only
      split
      · rename_i unknown
        refine iff_of_true (fun p same => by cases same) ⟨unused,fun tcp' told ip port => ?_⟩
        rw [proto,Option.some.injEq] at told
        subst told
        exact absurd unknown (not_or.mpr ⟨ip,port⟩)
      · have faces (p : Ptr) : ((s.msgs.pnode p).remoteIp == tcp.remoteIp && (s.msgs.pnode p).remotePort == tcp.remotePort) = true ↔
            s.Faces e p := by
          rw [Bool.and_eq_true,beq_iff_eq,beq_iff_eq]
          unfold Faces
          rw [proto]
          exact ⟨fun same => ⟨tcp,rfl,same⟩,fun ⟨_,told,same⟩ => by cases told; exact same⟩
        have first := @find_ahead _ (fun p => (s.msgs.pnode p).remoteIp == tcp.remoteIp && (s.msgs.pnode p).remotePort == tcp.remotePort)
          (fun p => (s.msgs.pnode p).preverse = e) cells
        unfold Ahead at first
        simp only [faces] at first
        constructor
        · intro serves
          exact ⟨unused,fun _ _ _ _ => first.mp fun p found => (serves p found).2.1⟩
        · rintro ⟨_,far⟩ p found
          have own := first.mpr (far tcp proto (not_or.mp ‹_›).1 (not_or.mp ‹_›).2) p found
          have passes := List.find?_some found
          exact ⟨List.mem_of_find?_eq_some found,own,(faces p).mp passes⟩

end Finding

-- A connection is found by its node, and the node by the espconn that listens,
-- exactly where no other connection with the same far end stands in front.
theorem connections_told (s : Net) (cells : List Ptr) (sound : s.Sound cells) :
    (∀ m t, m.Keeps t → ((espconnFindCurrentPcb s.pcbs m = null ∨ s.pcbs.Carries (espconnFindCurrentPcb s.pcbs m) t) ↔
      s.pcbs.Tells m t)) ∧
    (∀ e, s.Listens e → ∃ found, Ends (fun turns => s.espconnFindConnection turns e) found ∧
      ((∀ p, found = some p → s.Serves e cells p) ↔ s.Singles e cells)) :=
  ⟨fun _ _ keeps => current_tells sound.live keeps,fun _ listens => find_singles sound listens⟩

end Net

-- A host with one port is connected to the servers at 80 and 81, to the second one last.
def farIp : UInt32 := 0x0204a8c0
def twoPcbs : Pcbs where
  pcb x := ⟨0x0104a8c0,if x = 1 then 80 else 81,farIp,5000,x,some .server⟩
  live x := x == 1 || x == 2
  bound := []
  active := [2,1]
  tw := []

def twoServers : Net where
  msgs := ⟨fun p => if p = 1 then 2 else null,fun p => ⟨p + 10,p + 20,.tcpserver,0,p,farIp,5000,0,0,p⟩,fun p => p == 1 || p == 2⟩
  plinkActive := 1
  pserverList := [⟨21,31,5⟩,⟨22,32,5⟩]
  espconns e := some ⟨.tcp (some ⟨5000,if e = 21 ∨ e = 11 then 80 else 81,0,farIp,false,false,false,false⟩),.connect,1⟩
  pcbs := twoPcbs
  queue := []
  premot := []
  inside := none
  born := 2
  released := []
  processed := []

theorem twoServers_sound : twoServers.Sound [1,2] := by
  refine ⟨⟨⟨rfl,by decide,rfl,by decide,rfl⟩,by decide,by decide⟩,by decide,by decide⟩

theorem twoServers_told :
    (∀ m t, m.Keeps t → ((espconnFindCurrentPcb twoServers.pcbs m = null ∨
      twoServers.pcbs.Carries (espconnFindCurrentPcb twoServers.pcbs m) t) ↔ twoServers.pcbs.Tells m t)) ∧
    (∀ e, twoServers.Listens e → ∃ found, Ends (fun turns => twoServers.espconnFindConnection turns e) found ∧
      ((∀ p, found = some p → twoServers.Serves e [1,2] p) ↔ twoServers.Singles e [1,2])) :=
  Net.connections_told twoServers [1,2] twoServers_sound

-- The block of the second connection is found for the first, and the node of the
-- first for the server of the second.
theorem twoServers_mixed : twoServers.Sound [1,2] ∧
    ¬ (∀ p ∈ [1,2], ∀ t, (twoServers.msgs.pnode p).Keeps t →
      espconnFindCurrentPcb twoServers.pcbs (twoServers.msgs.pnode p) = null ∨
        twoServers.pcbs.Carries (espconnFindCurrentPcb twoServers.pcbs (twoServers.msgs.pnode p)) t) ∧
    ¬ (∀ e, twoServers.Listens e → ∀ found, Ends (fun turns => twoServers.espconnFindConnection turns e) found →
      ∀ p, found = some p → twoServers.Serves e [1,2] p) := by
  refine ⟨twoServers_sound,fun always => ?_,fun always => ?_⟩
  · have own : (twoServers.msgs.pnode 1).Keeps ⟨0x0104a8c0,80,farIp,5000⟩ := ⟨by decide,by decide⟩
    rcases always 1 (by decide) _ own with missing | carries
    · exact absurd missing (by decide)
    · exact absurd carries.2 (by decide)
  · have listens : twoServers.Listens 22 := ⟨by decide,by decide,_,rfl,rfl⟩
    have found : Ends (fun turns => twoServers.espconnFindConnection turns 22) (some 1) :=
      Net.find_far twoServers_sound.chain listens (by decide)
    exact absurd (always 22 listens _ found 1 rfl).2.1 (by decide)

end NonosLinkLayer.Connections
