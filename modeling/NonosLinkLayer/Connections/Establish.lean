import NonosLinkLayer.Connections.Calls

namespace NonosLinkLayer.Connections
open HeapList Turns
open NonosLinkLayer.Espconn (errOk errMem espconnMem espconnArg)

namespace Net
variable {s t : Net} {cells : List Ptr} {e p x : Ptr} {c : Espconn}

def links (s : Net) (cells : List Ptr) (e : Ptr) (c : Espconn) : Nat :=
  if c.isTcp then cells.countP fun p => (s.msgs.pnode p).preverse == e
  else if c.isUdp then cells.countP fun p => (s.msgs.pnode p).pespconn == e
  else 0

theorem info_walked (counts : EspconnMsg → Bool) (cells : List Ptr) {found done : UInt8 × List (Nat × RemotInfo)}
    (walk : walked (s.infoTurn counts) (cells.map fun p => (p,s.msgs.pnode p)) found = some done) :
    done.1 = found.1 + UInt8.ofNat (cells.countP fun p => counts (s.msgs.pnode p)) ∧
      ∀ written ∈ done.2, written ∈ found.2 ∨
        ∃ k < cells.countP fun p => counts (s.msgs.pnode p), written.1 = (found.1 + UInt8.ofNat k).toNat := by
  induction cells generalizing found with
  | nil =>
    cases walk
    exact ⟨(UInt8.add_zero _).symm,fun _ member => .inl member⟩
  | cons p rest ih =>
    rw [List.map_cons,walked] at walk
    rw [List.countP_cons]
    by_cases here : counts (s.msgs.pnode p) = true
    · cases block : s.espconn (s.msgs.pnode p).pespconn with
      | none =>
        rw [infoTurn,if_pos here,block] at walk
        cases walk
      | some c =>
        have turn : s.infoTurn counts found p (s.msgs.pnode p) = some (.next (found.1 + 1,found.2 ++
            [(found.1.toNat,⟨c.state,(s.msgs.pnode p).remotePort,(s.msgs.pnode p).remoteIp⟩)])) := by
          rw [infoTurn,if_pos here,block]
          rfl
        rw [turn] at walk
        obtain ⟨count,inside⟩ := ih walk
        rw [if_pos here]
        have further (k : Nat) : found.1 + 1 + UInt8.ofNat k = found.1 + UInt8.ofNat (k + 1) := by
          rw [UInt8.ofNat_add,UInt8.add_assoc,UInt8.add_comm 1]
          rfl
        refine ⟨count.trans (further _),fun written member => ?_⟩
        rcases inside written member with old | ⟨k,early,same⟩
        · rcases List.mem_append.mp old with old | new
          · exact .inl old
          · refine .inr ⟨0,Nat.succ_pos _,?_⟩
            rw [List.mem_singleton.mp new]
            exact congrArg UInt8.toNat (UInt8.add_zero _).symm
        · exact .inr ⟨k+1,Nat.succ_lt_succ early,same.trans (congrArg UInt8.toNat (further k))⟩
    · have turn : s.infoTurn counts found p (s.msgs.pnode p) = some (.next found) := if_neg here
      rw [turn] at walk
      rw [if_neg here]
      exact ih walk

structure Informed (s : Net) (cells : List Ptr) (e : Ptr) (c : Espconn) (t : Net) : Prop where
  frame : t = {s with espconns := t.espconns,premot := t.premot}
  espconns : t.espconns = Function.update s.espconns e (some {c with linkCnt := UInt8.ofNat (s.links cells e c)})
  premot : ∀ written ∈ t.premot, ∃ k < s.links cells e c, written.1 = (UInt8.ofNat k).toNat

theorem info_counts (chain : Chain s.msgs s.plinkActive cells) (counts : EspconnMsg → Bool) :
    Settles (fun turns => s.walk turns (s.infoTurn counts) (0,[])) fun found =>
      found.1 = UInt8.ofNat (cells.countP fun p => counts (s.msgs.pnode p)) ∧
        ∀ written ∈ found.2, ∃ k < cells.countP fun p => counts (s.msgs.pnode p), written.1 = (UInt8.ofNat k).toNat := by
  refine chain.walkNodes_settles fun found walk => ?_
  obtain ⟨count,inside⟩ := info_walked counts cells walk
  simp only [UInt8.zero_add] at count inside
  exact ⟨count,fun written member => (inside written member).resolve_left (List.not_mem_nil)⟩

theorem info_settles (chain : Chain s.msgs s.plinkActive cells) (real : e ≠ null) :
    Settles (fun turns => s.espconnGetConnectionInfo turns e) fun r => ∃ c, s.espconn e = some c ∧ Informed s cells e c r.1 := by
  unfold espconnGetConnectionInfo
  simp only [if_neg real]
  refine .bind (.option fun c block => block) fun c block => ?_
  split
  · rename_i tcp
    have links : s.links cells e c = cells.countP fun p => (s.msgs.pnode p).preverse == e := if_pos tcp
    refine .bind (info_counts chain fun m => m.preverse == e) fun found told => .done ⟨c,block,rfl,?_,?_⟩
    · rw [links,←told.1]
      rfl
    · rw [links]
      exact told.2
  · rename_i other
    split
    · rename_i udp
      have links : s.links cells e c = cells.countP fun p => (s.msgs.pnode p).pespconn == e := (if_neg other).trans (if_pos udp)
      refine .bind (info_counts chain fun m => m.pespconn == e) fun found told => .done ⟨c,block,rfl,?_,?_⟩
      · rw [links,←told.1]
        rfl
      · rw [links]
        exact told.2
    · rename_i neither
      have links : s.links cells e c = 0 := (if_neg other).trans (if_neg neither)
      refine .done ⟨c,block,rfl,?_,fun _ member => by cases member⟩
      rw [links]
      rfl

-- A call that has failed leaves plink_active as it was, none of the nodes and blocks
-- that it has allocated, and no callback argument that it has set.
structure Undone (s : Net) (cells : List Ptr) (t : Net) : Prop where
  linked : Chain t.msgs t.plinkActive cells
  nodes : ∀ p, t.msgs.live p = true → s.msgs.live p = true
  blocks : ∀ x, t.pcbs.live x = true → s.pcbs.live x = true ∧
    ((t.pcbs.pcb x).callbackArg = (s.pcbs.pcb x).callbackArg ∨ (t.pcbs.pcb x).callbackArg = null)

-- espconn_tcp_accept takes no connection for an espconn that does not listen, nor
-- when it has as many as it may.
def Refuses (s : Net) (cells : List Ptr) (e : Ptr) : Prop :=
  e = null ∨ ∃ c, s.espconn e = some c ∧ (c.tcp = some none ∨
    ∃ server, s.server e = some server ∧ UInt8.ofNat (s.links cells e c) = server.countOpt)

theorem allow_full (real : e ≠ null) (block : s.espconn e = some c) (tcp : c.isUdp = false) (links : UInt8) :
    Settles (fun _ => s.espconnTcpGetMaxConAllow e) fun allow =>
      ((links.toNat : Int) = allow ↔ ∃ server, s.server e = some server ∧ links = server.countOpt) := by
  unfold espconnTcpGetMaxConAllow
  rw [if_neg real,block]
  dsimp only [Option.bind_eq_bind,Option.bind_some]
  rw [tcp,if_neg (by decide)]
  cases s.server e with
  | none =>
    refine .done (iff_of_false (fun same => ?_) fun ⟨_,same,_⟩ => by cases same)
    unfold espconnArg at same
    omega
  | some server =>
    refine .done ?_
    rw [Int.natCast_inj,UInt8.toNat_inj]
    exact ⟨fun same => ⟨server,rfl,same⟩,fun ⟨_,told,same⟩ => by cases told; exact same⟩

structure Quiet (s t : Net) : Prop where
  msgs : t.msgs = s.msgs
  plinkActive : t.plinkActive = s.plinkActive
  live : t.pcbs.live = s.pcbs.live
  args : ∀ x, (t.pcbs.pcb x).callbackArg = (s.pcbs.pcb x).callbackArg ∨ (t.pcbs.pcb x).callbackArg = null

theorem Quiet.undone (quiet : Quiet s t) (chain : Chain s.msgs s.plinkActive cells) : Undone s cells t := by
  refine ⟨?_,?_,fun x live => ⟨?_,quiet.args x⟩⟩
  · rw [quiet.msgs,quiet.plinkActive]
    exact chain
  · rw [quiet.msgs]
    exact fun _ live => live
  · rwa [quiet.live] at live

theorem quiet_arg (s : Net) (x : Ptr) : Quiet s (s.tcpArg x null) := by
  refine ⟨rfl,rfl,rfl,fun y => ?_⟩
  by_cases same : y = x
  · subst same
    exact .inr (by simp [tcpArg,putPcb])
  · exact .inl (by simp [tcpArg,putPcb,same])

theorem quiet_err (s : Net) (x : Ptr) (errf : Option Errf) : Quiet s (s.tcpErr x errf) := by
  refine ⟨rfl,rfl,rfl,fun y => .inl ?_⟩
  by_cases same : y = x
  · subst same
    simp [tcpErr,putPcb]
  · simp [tcpErr,putPcb,same]

theorem updateMsg_some {write : EspconnMsg → EspconnMsg} (written : s.updateMsg p write = some t) :
    s.msgs.Node p ∧ t = {s with msgs := s.msgs.stored p (write (s.msgs.pnode p))} := by
  unfold updateMsg at written
  by_cases node : s.msgs.Node p
  · rw [node.node] at written
    simp only [Option.bind_eq_bind,Option.bind_some,node.store,Option.some.injEq] at written
    exact ⟨node,written.symm⟩
  · rw [show s.msgs.node p = none from if_neg node] at written
    cases written

theorem linked_stays (fresh : s.msgs.live p = false) (live : t.msgs.live p = true) : ¬ Undone s cells t := by
  intro undone
  have before := undone.nodes p live
  rw [fresh] at before
  cases before

theorem tcp_isUdp {tcp : EspTcp} (points : c.tcp = some (some tcp)) : c.isUdp = false := by
  unfold Espconn.tcp at points
  unfold Espconn.isUdp
  split at points
  · rename_i proto
    rw [proto]
  · rename_i proto
    rw [proto]
  · cases points
  · cases points

theorem Informed.quiet (informed : Informed s cells e c t) : Quiet s t := by
  rw [informed.frame]
  exact ⟨rfl,rfl,rfl,fun _ => .inl rfl⟩

theorem Quiet.trans {u : Net} (one : Quiet s t) (two : Quiet t u) : Quiet s u := by
  refine ⟨two.msgs.trans one.msgs,two.plinkActive.trans one.plinkActive,two.live.trans one.live,fun x => ?_⟩
  rcases two.args x with same | gone
  · rw [same]
    exact one.args x
  · exact .inr gone

structure Appended (s : Net) (cells : List Ptr) (p : Ptr) (t : Net) : Prop where
  frame : t = {s with msgs := t.msgs,plinkActive := t.plinkActive}
  chain : Chain t.msgs t.plinkActive (cells ++ [p])
  pnode : t.msgs.pnode = s.msgs.pnode
  live : t.msgs.live = s.msgs.live

theorem creat_appends (chain : Chain s.msgs s.plinkActive cells) (node : s.msgs.Node p) (foreign : p ∉ cells) :
    Yields (fun turns => s.espconnListCreat turns p) (Appended s cells p) := by
  obtain ⟨msgs,ends,linked,pnode,live⟩ := chain.appendNode node foreign
  have made := ends.map fun found => ({s with msgs := found.1,plinkActive := found.2} : Net)
  exact ⟨_,⟨rfl,linked,pnode,live⟩,made⟩

theorem fresh_foreign (chain : Chain s.msgs s.plinkActive cells) (fresh : s.msgs.Fresh p) : p ∉ cells := by
  intro member
  have live := chain.live p member
  rw [fresh.2] at live
  cases live

theorem updateMsg_live {write : EspconnMsg → EspconnMsg} (written : s.updateMsg p write = some t) : t.msgs.live = s.msgs.live := by
  rw [(updateMsg_some written).2]
  rfl

theorem msg_undone {grant : Grant} {u : Net} (quiet : Quiet s u) (chain : Chain s.msgs s.plinkActive cells)
    (fresh : ∀ p, grant.paccept = some p → s.msgs.Fresh p) :
    Settles (fun turns => u.acceptMsg turns e x grant) fun r => r.2 ≠ errOk → (Undone s cells r.1 ↔ grant.paccept = none) := by
  unfold acceptMsg
  cases granted : grant.paccept with
  | none => exact .done fun _ => iff_of_true ((quiet.trans (quiet_arg u x)).undone chain) rfl
  | some p =>
    have new := fresh p granted
    have stays (t : Net) (live : t.msgs.live p = true) : Undone s cells t ↔ some p = none :=
      iff_of_false (linked_stays new.2 live) (Option.some_ne_none p)
    have node : ((u.zallocMsg p).tcpArg x p).msgs.Node p := ⟨new.1,Function.update_self ..⟩
    have chain' : Chain ((u.zallocMsg p).tcpArg x p).msgs ((u.zallocMsg p).tcpArg x p).plinkActive cells := by
      have old := (chain.alloc new ⟨null,null,.nomode,0,null,0,0,0,0,u.born⟩).2
      rw [←quiet.msgs,←quiet.plinkActive] at old
      exact old
    refine .bind (creat_appends chain' node (fresh_foreign chain new)).settles fun v appended => ?_
    have live : v.msgs.live p = true := by
      rw [appended.live]
      exact node.2
    refine .bind (.option fun w written => (updateMsg_live written).trans rfl) fun w still => ?_
    cases grant.pespconn with
    | none => exact .done fun _ => stays w (by rw [still]; exact live)
    | some a =>
      refine .bind (.option fun y written => (updateMsg_live written).trans still) fun y still => ?_
      split
      · exact .done fun _ => stays y (by rw [still]; exact live)
      · exact .bind (.option fun _ _ => trivial) fun z _ => .done fun failed => absurd rfl failed

theorem accept_undone {grant : Grant} (chain : Chain s.msgs s.plinkActive cells)
    (fresh : ∀ p, grant.paccept = some p → s.msgs.Fresh p) :
    Settles (fun turns => s.espconnTcpAccept turns e x grant) fun r =>
      r.2 ≠ errOk → (Undone s cells r.1 ↔ Refuses s cells e ∨ grant.paccept = none) := by
  have still : Quiet s s := ⟨rfl,rfl,rfl,fun _ => .inl rfl⟩
  unfold espconnTcpAccept
  by_cases real : e = null
  · simp only [if_pos real]
    exact .done fun _ => iff_of_true (still.undone chain) (.inl (.inl real))
  simp only [if_neg real]
  refine .bind (.option fun c block => block) fun c block => ?_
  refine .bind (.option fun tcp points => points) fun tcp points => ?_
  cases tcp with
  | none =>
    simp only [if_true]
    exact .done fun _ => iff_of_true (still.undone chain) (.inl (.inr ⟨c,block,.inl points⟩))
  | some tcp =>
    simp only [if_neg (Option.some_ne_none tcp)]
    have armed := (quiet_arg s x).trans (quiet_err _ x (some .server))
    have chain' : Chain ((s.tcpArg x null).tcpErr x (some .server)).msgs ((s.tcpArg x null).tcpErr x (some .server)).plinkActive cells := chain
    refine .bind (info_settles chain' real) fun (t,_) ⟨c',block',informed⟩ => ?_
    cases block.symm.trans block'
    have quiet := armed.trans informed.quiet
    have counted : t.espconn e = some {c with linkCnt := UInt8.ofNat (s.links cells e c)} := by
      unfold espconn
      rw [if_neg real,informed.espconns]
      exact Function.update_self ..
    have servers : t.server e = s.server e := congrArg (fun t => t.server e) informed.frame
    refine .bind (.option fun c' block' => counted.symm.trans block') fun c' block' => ?_
    cases block'
    refine .bind (allow_full real counted (tcp_isUdp points) (UInt8.ofNat (s.links cells e c))) fun allow full => ?_
    rw [servers] at full
    split
    · rename_i same
      exact .done fun _ => iff_of_true (quiet.undone chain) (.inl (.inr ⟨c,block,.inr (full.mp same)⟩))
    · rename_i room
      have open_ : ¬ Refuses s cells e := by
        rintro (missing | ⟨c',block',nothing | full'⟩)
        · exact real missing
        · cases block.symm.trans block'
          rw [points] at nothing
          cases nothing
        · cases block.symm.trans block'
          exact room (full.mpr full')
      refine (msg_undone quiet chain fresh).mono fun r undone failed => ?_
      rw [undone failed]
      exact (or_iff_right open_).symm

end Net

section Killing
variable {pcb : Ptr → TcpPcb} {port : UInt16} {live : Ptr → Bool}

theorem removePort_live (l : List Ptr) (y : Ptr) :
    (removePort pcb port l live).2 y = true ↔ live y = true ∧ ¬ (y ∈ l ∧ (pcb y).localPort = port) := by
  induction l generalizing live with
  | nil => simp [removePort]
  | cons x rest ih =>
    unfold removePort
    split
    · rename_i same
      rw [ih]
      by_cases here : y = x
      · subst here
        simp [same]
      · simp [here]
    · rename_i other
      rw [ih]
      by_cases here : y = x
      · subst here
        simp [other]
      · simp [here]

theorem kill_live (s : Pcbs) (port : UInt16) (y : Ptr) : (s.espconnKillPcb port).live y = true ↔
    s.live y = true ∧ ¬ (y ∈ s.bound ++ s.active ++ s.tw ∧ (s.pcb y).localPort = port) := by
  unfold Pcbs.espconnKillPcb
  dsimp only
  rw [removePort_live,removePort_live,removePort_live,List.mem_append,List.mem_append]
  tauto

end Killing

-- What lwIP promises: tcp_new gives a block that was not there, and may free others
-- for it; tcp_bind and tcp_connect free none, and none sets a callback argument.
structure Tcp.Contract (T : Tcp) : Prop where
  new : ∀ {s x t}, T.tcpNew s = some (x,t) → s.live x = false ∧ t.live x = true ∧
    (∀ y, t.live y = true → y = x ∨ s.live y = true) ∧ ∀ y, y ≠ x → (t.pcb y).callbackArg = (s.pcb y).callbackArg
  bind : ∀ s x port, (T.tcpBind s x port).live = s.live ∧ ∀ y, ((T.tcpBind s x port).pcb y).callbackArg = (s.pcb y).callbackArg
  connect : ∀ s x ip port, (T.tcpConnect s x ip port).1.live = s.live ∧
    ∀ y, ((T.tcpConnect s x ip port).1.pcb y).callbackArg = (s.pcb y).callbackArg

namespace Net
variable {s t : Net} {cells : List Ptr} {e p x : Ptr} {T : Tcp} {tcp : EspTcp} {zalloc : Option Ptr} {pcbs : Pcbs}

def attempt (s : Net) (T : Tcp) (x p : Ptr) (tcp : EspTcp) : Pcbs × Int :=
  T.tcpConnect (T.tcpBind ((s.tcpArg x p).tcpErr x (some .client)).pcbs x (UInt16.ofInt tcp.localPort)) x
    tcp.remoteIp (UInt16.ofInt tcp.remotePort)

-- A client is undone when there was no memory, and when tcp_connect has found no
-- route for a block that is in a list, so that it is found by its port.
def Undoes (s : Net) (T : Tcp) (e : Ptr) (zalloc : Option Ptr) : Prop :=
  ∀ p x pcbs tcp, zalloc = some p → T.tcpNew s.pcbs = some (x,pcbs) → s.protoTcp e = some tcp →
    ({s with pcbs}.attempt T x p tcp).2 = errRte ∧
      x ∈ ({s with pcbs}.attempt T x p tcp).1.bound ++ ({s with pcbs}.attempt T x p tcp).1.active ++ ({s with pcbs}.attempt T x p tcp).1.tw

theorem attempt_frame (contract : T.Contract) (made : T.tcpNew s.pcbs = some (x,pcbs)) :
    (({s with pcbs} : Net).attempt T x p tcp).1.live x = true ∧ ∀ y, y ≠ x →
      ((({s with pcbs} : Net).attempt T x p tcp).1.live y = true → s.pcbs.live y = true) ∧
        ((({s with pcbs} : Net).attempt T x p tcp).1.pcb y).callbackArg = (s.pcbs.pcb y).callbackArg := by
  obtain ⟨_,new,old,args⟩ := contract.new made
  unfold attempt
  rw [(contract.connect ..).1,(contract.bind ..).1]
  refine ⟨new,fun y other => ⟨fun live => (old y live).resolve_left other,?_⟩⟩
  rw [(contract.connect ..).2,(contract.bind ..).2,←args y other]
  simp [tcpErr,tcpArg,putPcb,other]

structure Writes (s t : Net) : Prop where
  pnext : t.msgs.pnext = s.msgs.pnext
  live : t.msgs.live = s.msgs.live
  plinkActive : t.plinkActive = s.plinkActive
  pcbs : t.pcbs = s.pcbs

theorem Writes.trans {u : Net} (one : Writes s t) (two : Writes t u) : Writes s u :=
  ⟨two.pnext.trans one.pnext,two.live.trans one.live,two.plinkActive.trans one.plinkActive,two.pcbs.trans one.pcbs⟩

theorem Writes.chain (writes : Writes s t) (chain : Chain s.msgs s.plinkActive cells) : Chain t.msgs t.plinkActive cells := by
  rw [writes.plinkActive]
  exact chain.congr writes.pnext writes.live

theorem updateMsg_writes {write : EspconnMsg → EspconnMsg} (written : s.updateMsg p write = some t) : Writes s t := by
  rw [(updateMsg_some written).2]
  exact ⟨rfl,rfl,rfl,rfl⟩

theorem setState_writes {state : EspconnState} (written : s.setState e state = some t) : Writes s t := by
  obtain ⟨c,_,rfl⟩ := Option.map_eq_some_iff.mp written
  exact ⟨rfl,rfl,rfl,rfl⟩

structure Removed (s : Net) (cells : List Ptr) (t : Net) : Prop where
  frame : t = {s with msgs := t.msgs,plinkActive := t.plinkActive}
  chain : Chain t.msgs t.plinkActive cells
  pnode : t.msgs.pnode = s.msgs.pnode
  live : t.msgs.live = s.msgs.live

theorem delete_removes {behind ahead : List Ptr} (chain : Chain s.msgs s.plinkActive (behind ++ p :: ahead)) :
    Yields (fun turns => s.espconnListDelete turns p) (Removed s (behind ++ ahead)) := by
  obtain ⟨msgs,ends,linked,pnode,live⟩ := chain.deleteNode
  have made := ends.map fun found => ({s with msgs := found.1,plinkActive := found.2} : Net)
  exact ⟨_,⟨rfl,linked,pnode,live⟩,made⟩

theorem freeMsg_some (freed : s.freeMsg p = some t) :
    s.msgs.Node p ∧ t = {s with msgs := s.msgs.freed p,released := s.released ++ [(s.msgs.pnode p).born]} := by
  unfold freeMsg at freed
  by_cases node : s.msgs.Node p
  · rw [node.node] at freed
    simp only [Option.bind_eq_bind,Option.bind_some,node.free,Option.some.injEq] at freed
    exact ⟨node,freed.symm⟩
  · rw [show s.msgs.node p = none from if_neg node] at freed
    cases freed

-- With no route the node goes, and the block where a list has it.
theorem outcome_undone {v : Net} {err : Int} (chain : Chain v.msgs v.plinkActive (cells ++ [p])) (new : s.msgs.Fresh p)
    (live : v.msgs.live = Function.update s.msgs.live p true) (absent : s.pcbs.live x = false) (there : v.pcbs.live x = true)
    (others : ∀ y, y ≠ x → (v.pcbs.live y = true → s.pcbs.live y = true) ∧
      (v.pcbs.pcb y).callbackArg = (s.pcbs.pcb y).callbackArg) :
    Settles (fun turns => v.clientOutcome turns p x err) fun r =>
      (Undone s cells r.1 ↔ err = errRte ∧ x ∈ v.pcbs.bound ++ v.pcbs.active ++ v.pcbs.tw) := by
  unfold clientOutcome
  by_cases route : err = errRte
  · simp only [if_pos route]
    refine .bind (delete_removes chain).settles fun w removed => ?_
    refine .bind (.option fun t freed => (freeMsg_some freed).2) fun t freed => .done ?_
    have pcbs_ : w.pcbs = v.pcbs := by rw [removed.frame]
    rw [List.append_nil] at removed
    subst freed
    have gone (y : Ptr) := kill_live v.pcbs (v.pcbs.pcb x).localPort y
    dsimp only
    rw [pcbs_]
    constructor
    · intro undone
      refine ⟨route,?_⟩
      by_contra outside
      have stays := (gone x).mpr ⟨there,fun both => outside both.1⟩
      have before := (undone.blocks x stays).1
      rw [absent] at before
      cases before
    · rintro ⟨_,inside⟩
      have foreign : p ∉ cells := fun member => (chain.foreign_split).1 member
      refine ⟨removed.chain.freed foreign,fun q alive => ?_,fun y alive => ?_⟩
      · by_cases same : q = p
        · subst same
          exact absurd alive (by simp [Heap.freed])
        · simpa [Heap.freed,removed.live,live,same] using alive
      · obtain ⟨kept,spared⟩ := (gone y).mp alive
        have other : y ≠ x := by
          rintro rfl
          exact spared ⟨inside,rfl⟩
        exact ⟨(others y other).1 kept,.inl (others y other).2⟩
  · simp only [if_neg route]
    refine .done (iff_of_false (linked_stays new.2 ?_) fun given => route given.1)
    rw [live]
    exact Function.update_self ..

theorem undoes_made {tcp : EspTcp} {pcbs : Pcbs} (made : T.tcpNew (s.zallocMsg p).pcbs = some (x,pcbs)) (told : s.protoTcp e = some tcp) :
    Undoes s T e (some p) ↔ (({s with pcbs} : Net).attempt T x p tcp).2 = errRte ∧
      x ∈ (({s with pcbs} : Net).attempt T x p tcp).1.bound ++ (({s with pcbs} : Net).attempt T x p tcp).1.active ++
        (({s with pcbs} : Net).attempt T x p tcp).1.tw := by
  refine ⟨fun all => all p x pcbs tcp rfl made told,fun given p' x' pcbs' tcp' same new told' => ?_⟩
  cases same
  cases made.symm.trans new
  cases told.symm.trans told'
  exact given

theorem client_undone (contract : T.Contract) (chain : Chain s.msgs s.plinkActive cells)
    (fresh : ∀ p, zalloc = some p → s.msgs.Fresh p) :
    Settles (fun turns => s.espconnTcpClient turns e zalloc T) fun r =>
      r.2 ≠ errOk → (Undone s cells r.1 ↔ Undoes s T e zalloc) := by
  unfold espconnTcpClient
  cases zalloc with
  | none =>
    have still : Quiet s s := ⟨rfl,rfl,rfl,fun _ => .inl rfl⟩
    exact .done fun _ => iff_of_true (still.undone chain) fun _ _ _ _ same => by cases same
  | some p =>
    have new := fresh p rfl
    have foreign := fresh_foreign chain new
    have alloc := (chain.alloc new ⟨null,null,.nomode,0,null,0,0,0,0,s.born⟩).2
    refine .bind (.option fun tcp told => told) fun tcp told => ?_
    change s.protoTcp e = some tcp at told
    dsimp only
    cases made : T.tcpNew (s.zallocMsg p).pcbs with
    | none =>
      refine .bind (.option fun t freed => (freeMsg_some freed).2) fun t freed => .done fun _ => ?_
      subst freed
      refine iff_of_true ⟨alloc.freed foreign,fun q live => ?_,fun y live => ⟨live,.inl rfl⟩⟩ fun _ _ _ _ same new => ?_
      · by_cases same : q = p
        · subst same
          exact absurd live (by simp [Heap.freed])
        · simpa [Heap.freed,zallocMsg,Heap.alloc,same] using live
      · cases same
        cases made.symm.trans new
    | some found =>
      obtain ⟨x,pcbs⟩ := found
      dsimp only
      have node : ({s.zallocMsg p with pcbs} : Net).msgs.Node p := ⟨new.1,Function.update_self ..⟩
      refine .bind (creat_appends (s:={s.zallocMsg p with pcbs}) alloc node foreign).settles fun v appended => ?_
      refine .bind (.option fun t written => updateMsg_writes written) fun v1 one => ?_
      refine .bind (.option fun t written => one.trans (setState_writes written)) fun v2 two => ?_
      refine .bind (.option fun t written => two.trans (updateMsg_writes written)) fun v3 three => ?_
      refine .bind (.option fun t written => updateMsg_writes written) fun v4 four => ?_
      have armed : v4.pcbs = T.tcpBind ((({s with pcbs} : Net).tcpArg x p).tcpErr x (some .client)).pcbs x (UInt16.ofInt tcp.localPort) := by
        have pcbs_ : v.pcbs = pcbs := congrArg Net.pcbs appended.frame
        rw [four.pcbs]
        dsimp only
        rw [three.pcbs]
        unfold tcpErr tcpArg putPcb
        dsimp only
        rw [pcbs_]
      have linked : Chain v4.msgs v4.plinkActive (cells ++ [p]) := by
        have early : Chain ((v.tcpArg x p).tcpErr x (some .client)).msgs ((v.tcpArg x p).tcpErr x (some .client)).plinkActive
          (cells ++ [p]) := appended.chain
        have bound : Chain v3.msgs v3.plinkActive (cells ++ [p]) := three.chain early
        exact four.chain bound
      have live : v4.msgs.live = Function.update s.msgs.live p true :=
        four.live.trans (three.live.trans appended.live)
      have result : T.tcpConnect v4.pcbs x tcp.remoteIp (UInt16.ofInt tcp.remotePort) = ({s with pcbs} : Net).attempt T x p tcp := by
        rw [armed]
        rfl
      rw [result]
      obtain ⟨there,others⟩ := @attempt_frame s p x T tcp pcbs contract made
      have outcome := @outcome_undone s cells p x {v4 with pcbs := (({s with pcbs} : Net).attempt T x p tcp).1}
        (({s with pcbs} : Net).attempt T x p tcp).2 linked new live (contract.new made).1 there others
      exact outcome.mono fun r undone _ => undone.trans (undoes_made made told).symm

-- What a call that fails has allocated is undone exactly in the cases above.
theorem establishment_undone (T : Tcp) (contract : T.Contract) (s : Net) (cells : List Ptr)
    (chain : Chain s.msgs s.plinkActive cells) :
    (∀ e x (grant : Grant) t err, (∀ p, grant.paccept = some p → s.msgs.Fresh p) →
      Ends (fun turns => s.espconnTcpAccept turns e x grant) (t,err) → err ≠ errOk →
        (Undone s cells t ↔ Refuses s cells e ∨ grant.paccept = none)) ∧
    (∀ e zalloc t err, (∀ p, zalloc = some p → s.msgs.Fresh p) →
      Ends (fun turns => s.espconnTcpClient turns e zalloc T) (t,err) → err ≠ errOk →
        (Undone s cells t ↔ Undoes s T e zalloc)) :=
  ⟨fun _ _ _ _ _ fresh ends failed => (accept_undone chain fresh).holds ends failed,
    fun _ _ _ _ fresh ends failed => (client_undone contract chain fresh).holds ends failed⟩

end Net

def bare : Net where
  msgs := ⟨fun _ => null,fun _ => ⟨null,null,.nomode,0,null,0,0,0,0,0⟩,fun _ => false⟩
  plinkActive := null
  pserverList := [⟨21,31,5⟩]
  espconns e := if e = 21 then some ⟨.tcp (some ⟨0,80,0,0,false,false,false,false⟩),.listen,0⟩
    else if e = 11 then some ⟨.tcp (some ⟨5000,4000,0,0x0204a8c0,false,false,false,false⟩),.none,0⟩ else none
  pcbs := ⟨fun _ => ⟨0x0104a8c0,80,0x0204a8c0,6000,21,none⟩,fun x => x == 2,[],[2],[]⟩
  queue := []
  premot := []
  inside := none
  born := 0
  released := []
  processed := []

def noSegment : Tcp where
  tcpNew s := if s.live 1 then none else
    some (1,{s with live := Function.update s.live 1 true,pcb := Function.update s.pcb 1 ⟨0,0,0,0,null,none⟩})
  tcpBind s x port := {s with bound := x :: s.bound,pcb := Function.update s.pcb x {s.pcb x with localPort := port}}
  tcpConnect s x ip port := ({s with pcb := Function.update s.pcb x {s.pcb x with remoteIp := ip,remotePort := port}},errMem)

theorem noSegment_contract : noSegment.Contract := by
  constructor
  · intro s x t made
    unfold noSegment at made
    dsimp only at made
    split at made
    · cases made
    · rename_i absent
      simp only [Option.some.injEq,Prod.mk.injEq] at made
      obtain ⟨rfl,rfl⟩ := made
      refine ⟨Bool.eq_false_iff.mpr absent,Function.update_self 1 true s.live,fun y live => ?_,fun y other => ?_⟩
      · by_cases same : y = 1
        · exact .inl same
        · exact .inr (by simpa [same] using live)
      · simp [other]
  · refine fun s x port => ⟨rfl,fun y => ?_⟩
    by_cases same : y = x
    · subst same
      simp [noSegment]
    · simp [noSegment,same]
  · refine fun s x ip port => ⟨rfl,fun y => ?_⟩
    by_cases same : y = x
    · subst same
      simp [noSegment]
    · simp [noSegment,same]

theorem client_fails : ∃ t, Ends (fun turns => bare.espconnTcpClient turns 11 (some 1) noSegment) (t,errMem) :=
  ⟨_,.always fun _ => rfl⟩

theorem accept_fails : ∃ t, Ends (fun turns => bare.espconnTcpAccept turns 21 2 ⟨some 1,none,false⟩) (t,errMem) :=
  ⟨_,.turn (fun _ => rfl) (.done _)⟩

theorem bare_undone : ∃ t, Ends (fun turns => bare.espconnTcpAccept turns 21 2 ⟨none,none,false⟩) (t,errMem) ∧ Net.Undone bare [] t := by
  have ends : ∃ t, Ends (fun turns => bare.espconnTcpAccept turns 21 2 ⟨none,none,false⟩) (t,errMem) :=
    ⟨_,.turn (fun _ => rfl) (.done _)⟩
  obtain ⟨t,ends⟩ := ends
  refine ⟨t,ends,?_⟩
  exact ((Net.establishment_undone noSegment noSegment_contract bare [] (Chain.empty _)).1 21 2 _ t errMem
    (fun p same => by cases same) ends (by decide)).mpr (.inr rfl)

-- The espconn of a connection that comes in finds no memory, and the segment of one that is opened.
theorem establishment_stays :
    ¬ (∀ s cells, Chain s.msgs s.plinkActive cells → ∀ e x (grant : Grant) t err, (∀ p, grant.paccept = some p → s.msgs.Fresh p) →
      Ends (fun turns => s.espconnTcpAccept turns e x grant) (t,err) → err ≠ errOk → Net.Undone s cells t) ∧
    ¬ (∀ T : Tcp, T.Contract → ∀ s cells, Chain s.msgs s.plinkActive cells → ∀ e zalloc t err,
      (∀ p, zalloc = some p → s.msgs.Fresh p) → Ends (fun turns => s.espconnTcpClient turns e zalloc T) (t,err) →
        err ≠ errOk → Net.Undone s cells t) := by
  have chain : Chain bare.msgs bare.plinkActive [] := Chain.empty _
  have fresh (p : Ptr) (same : some 1 = some p) : bare.msgs.Fresh p := by
    cases same
    exact ⟨by decide,rfl⟩
  have failed : errMem ≠ errOk := by decide
  constructor
  · intro always
    obtain ⟨t,ends⟩ := accept_fails
    have undone := always bare [] chain 21 2 _ t errMem fresh ends (by decide)
    have exactly := (Net.accept_undone chain fresh).holds ends failed
    rcases exactly.mp undone with refuses | missing
    · rcases refuses with null_ | ⟨c,block,nothing | ⟨server,listed,full⟩⟩
      · cases null_
      · cases block
        cases nothing
      · cases block
        cases listed
        exact absurd full (by decide)
    · cases missing
  · intro always
    obtain ⟨t,ends⟩ := client_fails
    have undone := always noSegment noSegment_contract bare [] chain 11 (some 1) t errMem fresh ends (by decide)
    have exactly := (Net.client_undone noSegment_contract chain fresh).holds ends failed
    have route := (exactly.mp undone 1 1 _ _ rfl rfl rfl).1
    exact absurd route (by decide)

end NonosLinkLayer.Connections
