import NonosLinkLayer.Connections.Establish
import NonosLinkLayer.Connections.Identity
import NonosLinkLayer.Connections.Task

namespace NonosLinkLayer.Connections
open HeapList Turns
open NonosLinkLayer.Espconn (errOk errMem espconnMem espconnArg)

structure EspconnMsg.Kin (m n : EspconnMsg) : Prop where
  born : n.born = m.born
  pespconn : n.pespconn = m.pespconn
  preverse : n.preverse = m.preverse

namespace Net
variable {s t u : Net} {cells : List Ptr} {e p x : Ptr} {c : Espconn}

def Typed (s t : Net) : Prop :=
  ∀ e c, t.espconns e = some c → c.isUdp = true → ∃ old, s.espconns e = some old ∧ old.proto = c.proto

structure Same (s t : Net) : Prop where
  pnext : t.msgs.pnext = s.msgs.pnext
  live : t.msgs.live = s.msgs.live
  plinkActive : t.plinkActive = s.plinkActive
  kin : ∀ p, (s.msgs.pnode p).Kin (t.msgs.pnode p)
  typed : Typed s t
  inside : t.inside = s.inside
  born : t.born = s.born
  released : t.released = s.released
  processed : t.processed = s.processed

def Lasting (s t : Net) : Prop :=
  ∀ e c, s.espconns e = some c → c.isTcp = true → ∃ new, t.espconns e = some new ∧ new.isTcp = true

structure Alike (s t : Net) : Prop extends Same s t where
  opts : ∀ p, (t.msgs.pnode p).espconnOpt = (s.msgs.pnode p).espconnOpt
  servers : t.pserverList = s.pserverList
  lasting : Lasting s t

structure Still (s t : Net) : Prop extends Alike s t where
  premot : t.premot = s.premot

theorem kin_refl (m : EspconnMsg) : m.Kin m := ⟨rfl,rfl,rfl⟩

theorem kin_trans {m n o : EspconnMsg} (one : m.Kin n) (two : n.Kin o) : m.Kin o :=
  ⟨two.born.trans one.born,two.pespconn.trans one.pespconn,two.preverse.trans one.preverse⟩

theorem typed_refl (s : Net) : Typed s s := fun _ c block _ => ⟨c,block,rfl⟩

theorem typed_trans (one : Typed s t) (two : Typed t u) : Typed s u := by
  intro e c block udp
  obtain ⟨middle,block',same⟩ := two e c block udp
  have udp' : middle.isUdp = true := by
    unfold Espconn.isUdp at udp ⊢
    rw [same]
    exact udp
  obtain ⟨old,there,same'⟩ := one e middle block' udp'
  exact ⟨old,there,same'.trans same⟩

theorem lasting_refl (s : Net) : Lasting s s := fun _ c block tcp => ⟨c,block,tcp⟩

theorem lasting_trans (one : Lasting s t) (two : Lasting t u) : Lasting s u := by
  intro e c block tcp
  obtain ⟨middle,there,tcp'⟩ := one e c block tcp
  exact two e middle there tcp'

theorem still_refl (s : Net) : Still s s :=
  ⟨⟨⟨rfl,rfl,rfl,fun _ => kin_refl _,typed_refl s,rfl,rfl,rfl,rfl⟩,fun _ => rfl,rfl,lasting_refl s⟩,rfl⟩

theorem Same.trans (one : Same s t) (two : Same t u) : Same s u where
  pnext := two.pnext.trans one.pnext
  live := two.live.trans one.live
  plinkActive := two.plinkActive.trans one.plinkActive
  kin p := kin_trans (one.kin p) (two.kin p)
  typed := typed_trans one.typed two.typed
  inside := two.inside.trans one.inside
  born := two.born.trans one.born
  released := two.released.trans one.released
  processed := two.processed.trans one.processed

theorem Alike.trans (one : Alike s t) (two : Alike t u) : Alike s u where
  toSame := one.toSame.trans two.toSame
  opts p := (two.opts p).trans (one.opts p)
  servers := two.servers.trans one.servers
  lasting := lasting_trans one.lasting two.lasting

theorem Still.trans (one : Still s t) (two : Still t u) : Still s u where
  toAlike := one.toAlike.trans two.toAlike
  premot := two.premot.trans one.premot

theorem Same.chain (same : Same s t) (chain : Chain s.msgs s.plinkActive cells) : Chain t.msgs t.plinkActive cells := by
  rw [same.plinkActive]
  exact chain.congr same.pnext same.live

structure Becomes (s : Net) (e : Ptr) (c : Espconn) : Prop where
  udp : c.isUdp = true → ∃ old, s.espconns e = some old ∧ old.proto = c.proto
  tcp : ∀ old, s.espconns e = some old → old.isTcp = true → c.isTcp = true

theorem still_put (becomes : Becomes s e c) : Still s (s.putEspconn e c) := by
  refine ⟨⟨⟨rfl,rfl,rfl,fun _ => kin_refl _,fun e' c' block udp => ?_,rfl,rfl,rfl,rfl⟩,fun _ => rfl,rfl,
    fun e' c' block tcp => ?_⟩,rfl⟩
  · by_cases same : e' = e
    · subst same
      cases (Function.update_self ..).symm.trans block
      exact becomes.udp udp
    · exact ⟨c',(Function.update_of_ne same ..).symm.trans block,rfl⟩
  · by_cases same : e' = e
    · subst same
      exact ⟨c,Function.update_self ..,becomes.tcp c' block tcp⟩
    · exact ⟨c',(Function.update_of_ne same ..).trans block,tcp⟩

theorem becomes_proto {old : Espconn} (block : s.espconns e = some old) (proto : c.proto = old.proto) : Becomes s e c := by
  refine ⟨fun _ => ⟨old,block,proto.symm⟩,fun other there tcp => ?_⟩
  cases block.symm.trans there
  unfold Espconn.isTcp at tcp ⊢
  rw [proto]
  exact tcp

theorem espconn_some (block : s.espconn e = some c) : e ≠ null ∧ s.espconns e = some c := by
  unfold espconn at block
  split at block
  · cases block
  · exact ⟨‹_›,block⟩

theorem still_setState {state : EspconnState} (written : s.setState e state = some t) : Still s t := by
  obtain ⟨c,block,rfl⟩ := Option.map_eq_some_iff.mp written
  exact still_put (becomes_proto (espconn_some block).2 rfl)

theorem same_updateMsg {write : EspconnMsg → EspconnMsg} (written : s.updateMsg p write = some t)
    (kin : ∀ m : EspconnMsg, m.Kin (write m)) : Same s t := by
  obtain ⟨_,rfl⟩ := updateMsg_some written
  refine ⟨rfl,rfl,rfl,fun q => ?_,typed_refl s,rfl,rfl,rfl,rfl⟩
  dsimp only
  by_cases same : q = p
  · subst same
    rw [show (s.msgs.stored q (write (s.msgs.pnode q))).pnode q = write (s.msgs.pnode q) from Function.update_self ..]
    exact kin _
  · rw [show (s.msgs.stored p (write (s.msgs.pnode p))).pnode q = s.msgs.pnode q from Function.update_of_ne same ..]
    exact kin_refl _

theorem still_updateMsg {write : EspconnMsg → EspconnMsg} (written : s.updateMsg p write = some t)
    (kin : ∀ m : EspconnMsg, m.Kin (write m) ∧ (write m).espconnOpt = m.espconnOpt) : Still s t := by
  have same := same_updateMsg written fun m => (kin m).1
  obtain ⟨_,rfl⟩ := updateMsg_some written
  refine ⟨⟨same,fun q => ?_,rfl,lasting_refl s⟩,rfl⟩
  by_cases here : q = p
  · subst here
    exact (congrArg EspconnMsg.espconnOpt (Function.update_self ..)).trans (kin _).2
  · exact congrArg EspconnMsg.espconnOpt (Function.update_of_ne here ..)

theorem still_fields (s : Net) (pcbs : Pcbs) (queue : List (Signal × Ptr)) : Still s {s with pcbs,queue} :=
  ⟨⟨⟨rfl,rfl,rfl,fun _ => kin_refl _,typed_refl s,rfl,rfl,rfl,rfl⟩,fun _ => rfl,rfl,lasting_refl s⟩,rfl⟩

theorem still_post (s : Net) (sig : Signal) (p : Ptr) : Still s (s.etsPost sig p) := by
  unfold etsPost
  split
  · exact still_fields s s.pcbs _
  · exact still_refl s

theorem still_close {pcb : Ptr} {type : Bool} {err : Int} (closed : s.espconnClose p pcb type err = some t) : Still s t := by
  unfold espconnClose at closed
  simp only [Option.bind_eq_bind,Option.bind_eq_some_iff] at closed
  obtain ⟨a,written,closed⟩ := closed
  have one : Still s a := still_updateMsg written fun m => ⟨⟨rfl,rfl,rfl⟩,rfl⟩
  split at closed
  · cases closed
    exact one
  · simp only [Option.bind_eq_some_iff] at closed
    obtain ⟨m,_,b,state,posted⟩ := closed
    cases posted
    have two : Still a (a.tcpErr pcb none) := still_fields a _ a.queue
    exact ((one.trans two).trans (still_setState state)).trans (still_post b .close p)

theorem still_tcpDisconnect {type : Bool} {err : Int} (closed : s.espconnTcpDisconnect p type err = some t) : Still s t := by
  obtain ⟨m,_,closed⟩ := Option.bind_eq_some_iff.mp closed
  exact still_close closed

theorem still_err {err : Int} (told : s.espconnErr p err = some t) : Still s t := by
  unfold espconnErr at told
  split at told
  · cases told
    exact still_refl s
  · simp only [Option.bind_eq_bind,Option.bind_eq_some_iff] at told
    obtain ⟨m,_,a,state,told⟩ := told
    split at told
    · cases told
    · cases told
      exact (still_setState state).trans (still_post a .errer p)

theorem still_failed {err : Int} (failed : s.tcpEventErr x err = some t) : Still s t := by
  unfold tcpEventErr at failed
  have gone (live : Ptr → Bool) : Still s {s with pcbs := {s.pcbs with live}} := still_fields s _ s.queue
  dsimp only at failed
  split at failed
  · cases failed
    exact gone _
  · exact (gone _).trans (still_err failed)

theorem still_connected (connected : s.espconnClientConnect x = some t) : Still s t := by
  unfold espconnClientConnect at connected
  simp only [Option.bind_eq_bind,Option.bind_eq_some_iff] at connected
  obtain ⟨m,_,a,state,b,written,_,_,same⟩ := connected
  cases same
  exact (still_setState state).trans (still_updateMsg written fun m => ⟨⟨rfl,rfl,rfl⟩,rfl⟩)

theorem still_receive {state : EspconnState} (received : s.receive x state = some t) : Still s t := by
  unfold receive at received
  simp only [Option.bind_eq_bind,Option.bind_eq_some_iff] at received
  obtain ⟨m,_,a,state,written⟩ := received
  exact (still_setState state).trans (still_updateMsg written fun m => ⟨⟨rfl,rfl,rfl⟩,rfl⟩)

theorem withTcp_proto (c : Espconn) (tcp : EspTcp) (udp : (c.withTcp tcp).isUdp = true) : (c.withTcp tcp).proto = c.proto := by
  unfold Espconn.withTcp at udp ⊢
  split at udp
  · cases udp
  · cases udp
  · rfl

theorem withTcp_isTcp (c : Espconn) (tcp : EspTcp) (is : c.isTcp = true) : (c.withTcp tcp).isTcp = true := by
  unfold Espconn.isTcp at is
  unfold Espconn.withTcp
  split at is
  · rename_i proto
    rw [proto]
    rfl
  · cases is

theorem becomes_withTcp (block : s.espconn e = some c) (tcp : EspTcp) : Becomes s e (c.withTcp tcp) := by
  obtain ⟨_,there⟩ := espconn_some block
  refine ⟨fun udp => ⟨c,there,(withTcp_proto c tcp udp).symm⟩,fun old block' is => ?_⟩
  cases there.symm.trans block'
  exact withTcp_isTcp c tcp is

theorem still_application {tcp : EspTcp} (written : (s.espconn e).map (fun c => s.putEspconn e (c.withTcp tcp)) = some t) :
    Still s t := by
  obtain ⟨c,block,rfl⟩ := Option.map_eq_some_iff.mp written
  exact still_put (becomes_withTcp block tcp)

-- A node that is found has the espconn itself, or the far end that an esp_tcp tells.
def Found (s : Net) (cells : List Ptr) (e p : Ptr) : Prop :=
  p ∈ cells ∧ ((s.msgs.pnode p).pespconn = e ∨ ∃ c tcp, s.espconn e = some c ∧ c.tcp = some (some tcp))

theorem find_settles (chain : Chain s.msgs s.plinkActive cells) (e : Ptr) :
    Settles (fun turns => s.espconnFindConnection turns e) fun found => ∀ p, found = some p → Found s cells e p := by
  unfold espconnFindConnection
  by_cases missing : e = null
  · simp only [if_pos missing]
    exact .done fun _ same => by cases same
  simp only [if_neg missing]
  have node (test : EspconnMsg → Bool) : Settles (fun turns => s.findNode turns test) fun found =>
      ∀ p, found = some p → p ∈ cells ∧ test (s.msgs.pnode p) = true := by
    have told : Yields (fun turns => s.findNode turns test) fun found => ∀ p, found = some p → p ∈ cells ∧ test (s.msgs.pnode p) = true :=
      ⟨_,fun p found => ⟨List.mem_of_find?_eq_some found,List.find?_some (p:=fun p => test (s.msgs.pnode p)) found⟩,
        findNode_ends chain test⟩
    exact told.settles
  refine .bind (node _) fun own told => ?_
  split
  · refine .done fun p same => ?_
    obtain ⟨member,has⟩ := told p same
    exact ⟨member,.inl (beq_iff_eq.mp has)⟩
  split
  · refine .bind (.option fun c block => block) fun c block => ?_
    refine .bind (.option fun tcp points => points) fun tcp points => ?_
    cases tcp with
    | none => exact .done fun _ same => by cases same
    | some tcp =>
      dsimp only
      split
      · exact .done fun _ same => by cases same
      · exact (node _).mono fun found told p same => ⟨(told p same).1,.inr ⟨c,tcp,block,points⟩⟩
  · exact .done fun _ same => by cases same

theorem still_disconnect {err : Int} (chain : Chain s.msgs s.plinkActive cells) :
    Settles (fun turns => s.espconnDisconnect turns e err) fun r => Still s r.1 := by
  unfold espconnDisconnect
  by_cases missing : e = null
  · simp only [if_pos missing]
    exact .done (still_refl s)
  simp only [if_neg missing]
  refine .bind (.option fun _ _ => trivial) fun c _ => ?_
  split
  · exact .done (still_refl s)
  refine .bind (find_settles chain e) fun pnode _ => ?_
  cases pnode with
  | none => exact .done (still_refl s)
  | some p =>
    refine .bind (.option fun _ _ => trivial) fun m _ => ?_
    split
    · exact .done (still_refl s)
    · exact .bind (.option fun t closed => still_tcpDisconnect closed) fun t still => .done still

theorem still_abort (chain : Chain s.msgs s.plinkActive cells) :
    Settles (fun turns => s.espconnAbort turns e) fun r => Still s r.1 := by
  unfold espconnAbort
  by_cases missing : e = null
  · simp only [if_pos missing]
    exact .done (still_refl s)
  simp only [if_neg missing]
  refine .bind (.option fun _ _ => trivial) fun c _ => ?_
  split
  · exact .done (still_refl s)
  refine .bind (find_settles chain e) fun pnode _ => ?_
  cases pnode with
  | none => exact .done (still_refl s)
  | some p =>
    dsimp only
    split
    · exact .done (still_refl s)
    · exact .bind (.option fun t closed => still_tcpDisconnect closed) fun t still => .done still

theorem still_sent (chain : Chain s.msgs s.plinkActive cells) (posts : Bool) :
    Settles (fun turns => s.espconnSent turns e posts) fun r => Still s r.1 := by
  unfold espconnSent
  by_cases missing : e = null
  · simp only [if_pos missing]
    exact .done (still_refl s)
  simp only [if_neg missing]
  refine .bind (find_settles chain e) fun pnode _ => ?_
  cases pnode with
  | none => exact .done (still_refl s)
  | some p =>
    refine .bind (.option fun t state => still_setState state) fun t still => .done ?_
    dsimp only
    split
    · exact still.trans (still_post t .write p)
    · exact still

structure Asked (s : Net) (cells : List Ptr) (e : Ptr) (t : Net) : Prop extends Alike s t where
  premot : ∃ c, s.espconn e = some c ∧ ∀ written ∈ t.premot, ∃ k < s.links cells e c, written.1 = (UInt8.ofNat k).toNat

theorem Informed.asked (informed : Informed s cells e c t) (block : s.espconn e = some c) : Asked s cells e t := by
  have counted : Still s (s.putEspconn e {c with linkCnt := UInt8.ofNat (s.links cells e c)}) :=
    still_put (becomes_proto (espconn_some block).2 rfl)
  have typed : Typed s t := by
    intro e' c' there udp
    rw [informed.espconns] at there
    exact counted.typed e' c' there udp
  have lasting : Lasting s t := by
    intro e' c' there tcp
    rw [informed.espconns]
    exact counted.lasting e' c' there tcp
  have premot := informed.premot
  rw [informed.frame] at typed lasting ⊢
  exact ⟨⟨⟨rfl,rfl,rfl,fun _ => kin_refl _,typed,rfl,rfl,rfl,rfl⟩,fun _ => rfl,rfl,lasting⟩,c,block,premot⟩

theorem Still.asked (still : Still s t) (asked : Asked t cells e u) (espconns : t.espconns = s.espconns) : Asked s cells e u := by
  obtain ⟨c,block,premot⟩ := asked.premot
  have same : s.espconn e = some c := by
    unfold espconn at block ⊢
    rw [←espconns]
    exact block
  refine ⟨still.toAlike.trans asked.toAlike,c,same,?_⟩
  have links : t.links cells e c = s.links cells e c := by
    unfold links
    simp only [(still.kin _).preverse,(still.kin _).pespconn]
  rw [←links]
  exact premot

structure Joined (s : Net) (cells : List Ptr) (p e : Ptr) (t : Net) : Prop where
  chain : Chain t.msgs t.plinkActive cells
  live : t.msgs.live = Function.update s.msgs.live p true
  kin : ∀ q, q ≠ p → (s.msgs.pnode q).Kin (t.msgs.pnode q) ∧ (t.msgs.pnode q).espconnOpt = (s.msgs.pnode q).espconnOpt
  number : (t.msgs.pnode p).born = s.born
  preverse : (t.msgs.pnode p).preverse = e
  opt : (t.msgs.pnode p).espconnOpt = 0
  typed : Typed s t
  inside : t.inside = s.inside
  born : t.born = s.born + 1
  released : t.released = s.released
  processed : t.processed = s.processed
  servers : t.pserverList = s.pserverList
  premot : t.premot = s.premot
  lasting : Lasting s t

theorem zalloc_mine (s : Net) (p : Ptr) : (s.zallocMsg p).msgs.pnode p = ⟨null,null,.nomode,0,null,0,0,0,0,s.born⟩ :=
  Function.update_self ..

theorem zalloc_joined (chain : Chain s.msgs s.plinkActive cells) (fresh : s.msgs.Fresh p) : Joined s cells p null (s.zallocMsg p) := by
  have mine := zalloc_mine s p
  have others (q : Ptr) (other : q ≠ p) : (s.zallocMsg p).msgs.pnode q = s.msgs.pnode q := Function.update_of_ne other ..
  refine ⟨(chain.alloc fresh _).2,rfl,fun q other => ?_,?_,?_,?_,typed_refl s,rfl,rfl,rfl,rfl,rfl,rfl,lasting_refl s⟩
  · rw [others q other]
    exact ⟨kin_refl _,rfl⟩
  all_goals rw [mine]

theorem Joined.relinked {next : List Ptr} (joined : Joined s cells p e t) (frame : u = {t with msgs := u.msgs,plinkActive := u.plinkActive})
    (chain : Chain u.msgs u.plinkActive next) (pnode : u.msgs.pnode = t.msgs.pnode) (live : u.msgs.live = t.msgs.live) :
    Joined s next p e u := by
  have typed : Typed s u := by
    rw [frame]
    exact joined.typed
  have lasting : Lasting s u := by
    rw [frame]
    exact joined.lasting
  refine ⟨chain,live.trans joined.live,?_,?_,?_,?_,typed,?_,?_,?_,?_,?_,?_,lasting⟩
  · rw [pnode]
    exact joined.kin
  · rw [pnode]
    exact joined.number
  · rw [pnode]
    exact joined.preverse
  · rw [pnode]
    exact joined.opt
  all_goals rw [frame]
  · exact joined.inside
  · exact joined.born
  · exact joined.released
  · exact joined.processed
  · exact joined.servers
  · exact joined.premot

theorem Joined.node (joined : Joined s cells p e t) (real : p ≠ null) : t.msgs.Node p := by
  refine ⟨real,?_⟩
  rw [joined.live]
  exact Function.update_self ..

theorem Joined.creat (joined : Joined s cells p e t) (real : p ≠ null) (foreign : p ∉ cells) :
    Settles (fun turns => t.espconnListCreat turns p) fun u => Joined s (cells ++ [p]) p e u ∧ u.msgs.pnode = t.msgs.pnode ∧
      u.espconns = t.espconns := by
  refine (creat_appends joined.chain (joined.node real) foreign).settles.mono fun u appended => ?_
  refine ⟨joined.relinked appended.frame appended.chain appended.pnode appended.live,appended.pnode,?_⟩
  rw [appended.frame]

theorem Joined.still (joined : Joined s cells p e t) (still : Still t u) : Joined s cells p e u where
  chain := still.chain joined.chain
  live := still.live.trans joined.live
  kin q other := ⟨kin_trans (joined.kin q other).1 (still.kin q),(still.opts q).trans (joined.kin q other).2⟩
  number := (still.kin p).born.trans joined.number
  preverse := (still.kin p).preverse.trans joined.preverse
  opt := (still.opts p).trans joined.opt
  typed := typed_trans joined.typed still.typed
  inside := still.inside.trans joined.inside
  born := still.born.trans joined.born
  released := still.released.trans joined.released
  processed := still.processed.trans joined.processed
  servers := still.servers.trans joined.servers
  premot := still.premot.trans joined.premot
  lasting := lasting_trans joined.lasting still.lasting

theorem Joined.write {write : EspconnMsg → EspconnMsg} (joined : Joined s cells p e t) (written : t.updateMsg p write = some u)
    (keeps : ∀ m : EspconnMsg, (write m).born = m.born ∧ (write m).espconnOpt = m.espconnOpt) {f : Ptr}
    (preverse : (write (t.msgs.pnode p)).preverse = f) : Joined s cells p f u := by
  obtain ⟨_,rfl⟩ := updateMsg_some written
  have mine : (t.msgs.stored p (write (t.msgs.pnode p))).pnode p = write (t.msgs.pnode p) := Function.update_self ..
  have others (q : Ptr) (other : q ≠ p) : (t.msgs.stored p (write (t.msgs.pnode p))).pnode q = t.msgs.pnode q :=
    Function.update_of_ne other ..
  refine ⟨joined.chain.stored p _,joined.live,fun q other => ?_,?_,?_,?_,joined.typed,joined.inside,joined.born,joined.released,
    joined.processed,joined.servers,joined.premot,joined.lasting⟩
  · dsimp only
    rw [others q other]
    exact joined.kin q other
  · dsimp only
    rw [mine,(keeps _).1]
    exact joined.number
  · dsimp only
    rw [mine]
    exact preverse
  · dsimp only
    rw [mine,(keeps _).2]
    exact joined.opt

theorem copyPartial_some {d : Ptr} (copied : s.espconnCopyPartial d e = some t) :
    ∃ c, c.isUdp = false ∧ c.isTcp = true ∧ t = s.putEspconn d c := by
  unfold espconnCopyPartial at copied
  simp only [Option.bind_eq_bind,Option.bind_eq_some_iff] at copied
  obtain ⟨source,_,copied⟩ := copied
  split at copied
  · cases copied
  · simp only [Option.bind_eq_some_iff] at copied
    obtain ⟨tcp,_,old,_,copied⟩ := copied
    cases copied
    exact ⟨_,rfl,rfl,rfl⟩

theorem still_plain (e : Ptr) (plain : c.isUdp = false) (keeps : ∀ old, s.espconns e = some old → old.isTcp = true → c.isTcp = true) :
    Still s (s.putEspconn e c) := still_put ⟨fun udp => (by rw [plain] at udp; cases udp),keeps⟩

theorem still_copied {d : Ptr} (copied : s.espconnCopyPartial d e = some t) : Still s t := by
  obtain ⟨c,plain,tcp,rfl⟩ := copyPartial_some copied
  exact still_plain d plain fun _ _ _ => tcp

def Plain (s : Net) (p : Ptr) : Prop := ∀ c, s.espconn (s.msgs.pnode p).pespconn = some c → c.isUdp = false

theorem plain_null (missing : (s.msgs.pnode p).pespconn = null) : Plain s p := by
  intro c block
  rw [missing] at block
  cases block

theorem Plain.put (plain : c.isUdp = false) (own : (s.msgs.pnode p).pespconn = e) : Plain (s.putEspconn e c) p := by
  intro c' block
  obtain ⟨_,there⟩ := espconn_some block
  dsimp only [putEspconn] at there
  rw [own,Function.update_self] at there
  cases there
  exact plain

theorem typed_plain (typed : Typed s t) (plain : ∀ c, s.espconn e = some c → c.isUdp = false) (block : t.espconn e = some c) :
    c.isUdp = false := by
  obtain ⟨real,there⟩ := espconn_some block
  by_contra udp
  obtain ⟨old,before,same⟩ := typed e c there (Bool.eq_true_of_not_eq_false udp)
  have was := plain old ((if_neg real).trans before)
  unfold Espconn.isUdp at was udp
  rw [same] at was
  exact udp was

theorem Plain.still (plain : Plain s p) (same : Same s t) : Plain t p := by
  intro c block
  rw [(same.kin p).pespconn] at block
  exact typed_plain same.typed plain block

theorem updateMsg_node {write : EspconnMsg → EspconnMsg} (written : s.updateMsg p write = some t) :
    t.msgs.pnode p = write (s.msgs.pnode p) := by
  rw [(updateMsg_some written).2]
  exact Function.update_self ..

theorem still_told (block : s.espconn e = some c) (tcp : EspTcp) (state : EspconnState) :
    Still s (s.putEspconn e {c.withTcp tcp with state}) :=
  still_put ⟨(becomes_withTcp block tcp).udp,(becomes_withTcp block tcp).tcp⟩

theorem reserve_joins {a f : Ptr} (joined : Joined s cells p f t) (own : (t.msgs.pnode p).pespconn = a)
    (reserved : t.acceptReserve e x p a = some u) : Joined s cells p f u ∧ Plain u p ∧ (u.msgs.pnode p).pespconn = a := by
  unfold acceptReserve at reserved
  simp only [Option.bind_eq_bind,Option.bind_eq_some_iff] at reserved
  obtain ⟨v,written,c,block,tcp,_,copied⟩ := reserved
  have one := joined.write written (fun _ => ⟨rfl,rfl⟩) joined.preverse
  have own' : (v.msgs.pnode p).pespconn = a := (congrArg EspconnMsg.pespconn (updateMsg_node written)).trans own
  have still := (still_told block {tcp with remoteIp := (t.pcbs.pcb x).remoteIp,remotePort := (t.pcbs.pcb x).remotePort.toNat}
    .connect).trans (still_copied copied)
  obtain ⟨d,plain,_,rfl⟩ := copyPartial_some copied
  exact ⟨one.still still,.put plain own',own'⟩

structure Taken (s : Net) (cells : List Ptr) (e : Ptr) (grant : Grant) (p : Ptr) (u : Net) : Prop where
  granted : grant.paccept = some p
  joined : Joined s (cells ++ [p]) p e u
  plain : Plain u p
  own : (u.msgs.pnode p).pespconn = null ∨ grant.pespconn = some (u.msgs.pnode p).pespconn

theorem msg_joins {grant : Grant} (chain : Chain s.msgs s.plinkActive cells) (fresh : ∀ p, grant.paccept = some p → s.msgs.Fresh p)
    (free : ∀ a, grant.pespconn = some a → s.espconns a = none) :
    Settles (fun turns => s.acceptMsg turns e x grant) fun r =>
      (grant.paccept = none ∧ Still s r.1) ∨ ∃ p, Taken s cells e grant p r.1 := by
  unfold acceptMsg
  cases granted : grant.paccept with
  | none => exact .done (.inl ⟨rfl,still_fields s _ s.queue⟩)
  | some p =>
    have new := fresh p granted
    have armed : Joined s cells p null ((s.zallocMsg p).tcpArg x p) := (zalloc_joined chain new).still (still_fields _ _ s.queue)
    refine .bind (armed.creat new.1 (fresh_foreign chain new)) fun t ⟨joined,nodes,espconns⟩ => ?_
    have bare : (t.msgs.pnode p).pespconn = null := by
      rw [nodes]
      exact congrArg EspconnMsg.pespconn (zalloc_mine s p)
    refine .bind (.option fun u written => And.intro (joined.write (f:=e) written (fun _ => ⟨rfl,rfl⟩) rfl) (And.intro
      (congrArg EspconnMsg.pespconn (updateMsg_node written)) (updateMsg_some written).2)) fun u ⟨one,own,same⟩ => ?_
    cases grants : grant.pespconn with
    | none => exact .done (.inr ⟨p,granted,one,plain_null (own.trans bare),.inl (own.trans bare)⟩)
    | some a =>
      have absent : u.espconns a = none := by
        rw [same]
        exact (congrFun espconns a).trans (free a grants)
      have zero : Still u (u.putEspconn a .zero) := still_plain a rfl fun old block _ => by cases absent.symm.trans block
      refine .bind (.option fun v written => And.intro ((one.still zero).write (f:=e) written (fun _ => ⟨rfl,rfl⟩) one.preverse)
        (And.intro (congrArg EspconnMsg.pespconn (updateMsg_node written)) (updateMsg_some written).2)) fun v ⟨two,own,same⟩ => ?_
      have zeroed : v.espconns a = some .zero := by
        rw [same]
        exact Function.update_self ..
      split
      · refine .done (.inr ⟨p,granted,two,fun c block => ?_,.inr (grants.trans (congrArg some own.symm))⟩)
        obtain ⟨_,there⟩ := espconn_some block
        rw [own] at there
        cases zeroed.symm.trans there
        rfl
      · have pointed : Still v (v.putEspconn a ⟨.invalid (some .zero),.none,0⟩) :=
          still_plain a rfl fun old block tcp => by cases zeroed.symm.trans block; cases tcp
        refine .bind (.option fun w reserved => reserve_joins (two.still pointed) own reserved) fun w ⟨three,plain,own⟩ => ?_
        exact .done (.inr ⟨p,granted,three,plain,.inr (grants.trans (congrArg some own.symm))⟩)

inductive Accepting (s : Net) (cells : List Ptr) (e : Ptr) (grant : Grant) (u : Net) : Prop where
  | declined (t : Net) (before : Still s t ∨ Asked s cells e t) (after : Still t u)
  | joined (c : Espconn) (t : Net) (p : Ptr) (block : s.espconn e = some c) (asked : Asked s cells e t)
      (room : ∀ server, s.server e = some server → UInt8.ofNat (s.links cells e c) ≠ server.countOpt)
      (taken : Taken t cells e grant p u)

theorem accept_cases {grant : Grant} (chain : Chain s.msgs s.plinkActive cells)
    (fresh : ∀ p, grant.paccept = some p → s.msgs.Fresh p) (free : ∀ a, grant.pespconn = some a → a ≠ e ∧ s.espconns a = none) :
    Settles (fun turns => s.espconnTcpAccept turns e x grant) fun r => Accepting s cells e grant r.1 := by
  unfold espconnTcpAccept
  by_cases real : e = null
  · simp only [if_pos real]
    exact .done (.declined s (.inl (still_refl s)) (still_refl s))
  simp only [if_neg real]
  refine .bind (.option fun c block => block) fun c block => ?_
  refine .bind (.option fun tcp points => points) fun tcp points => ?_
  cases tcp with
  | none =>
    simp only [if_true]
    exact .done (.declined s (.inl (still_refl s)) (still_refl s))
  | some tcp =>
    simp only [if_neg (Option.some_ne_none tcp)]
    have armed : Still s ((s.tcpArg x null).tcpErr x (some .server)) := still_fields s _ s.queue
    refine .bind (info_settles (armed.chain chain) real) fun (t,_) ⟨c',block',informed⟩ => ?_
    cases block.symm.trans block'
    have asked : Asked s cells e t := armed.asked (informed.asked block') rfl
    have counted : t.espconn e = some {c with linkCnt := UInt8.ofNat (s.links cells e c)} := by
      unfold espconn
      rw [if_neg real,informed.espconns]
      exact Function.update_self ..
    refine .bind (.option fun c' block' => counted.symm.trans block') fun c' block' => ?_
    cases block'
    refine .bind (allow_full real counted (tcp_isUdp points) (UInt8.ofNat (s.links cells e c))) fun allow full => ?_
    split
    · exact .done (.declined t (.inr asked) (still_refl t))
    · rename_i room
      have new (p : Ptr) (granted : grant.paccept = some p) : t.msgs.Fresh p := by
        refine ⟨(fresh p granted).1,?_⟩
        rw [asked.live]
        exact (fresh p granted).2
      have absent (a : Ptr) (granted : grant.pespconn = some a) : t.espconns a = none := by
        obtain ⟨other,none_⟩ := free a granted
        rw [informed.espconns,Function.update_of_ne other]
        exact none_
      refine (msg_joins (asked.chain chain) new absent).mono fun r outcome => ?_
      rcases outcome with ⟨_,still⟩ | ⟨p,taken⟩
      · exact .declined t (.inr asked) still
      · refine .joined c t p block asked (fun server listed same => room (full.mpr ⟨server,?_,same⟩)) taken
        unfold Net.server at listed ⊢
        rw [asked.servers]
        exact listed

end Net

end NonosLinkLayer.Connections
