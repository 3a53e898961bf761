import NonosLinkLayer.Connections.Lifetime

namespace NonosLinkLayer.Connections
open HeapList Turns Transitions
open NonosLinkLayer.Espconn (errOk errMem espconnArg)

namespace Net
variable {s t u : Net} {cells : List Ptr} {e p x : Ptr} {c : Espconn} {grant : Grant}

def connections (s : Net) (cells : List Ptr) (e : Ptr) : Nat := cells.countP fun p => (s.msgs.pnode p).preverse == e

structure Serving (s : Net) (e : Ptr) : Prop where
  real : e ≠ null
  tcp : ∃ c, s.espconns e = some c ∧ c.isTcp = true
  own : ∀ p, s.msgs.live p = true → (s.msgs.pnode p).pespconn ≠ e

-- No espconn has more connections than one may have at all, and no node an option
-- that would keep it in plink_active while it is closed.
structure Fits (s : Net) (cells : List Ptr) : Prop where
  chain : Chain s.msgs s.plinkActive cells
  nodes : ∀ p, s.msgs.live p = true → (s.msgs.pnode p).espconnOpt = 0 ∧ Plain s p
  room : ∀ e, e ≠ null → s.connections cells e ≤ mempNumTcpPcb
  servers : ∀ server ∈ s.pserverList, server.countOpt.toNat ≤ mempNumTcpPcb ∧ Serving s server.pespconn
  premot : ∀ written ∈ s.premot, written.1 < linkMax

structure Limited (s : Net) (cells : List Ptr) : Prop extends Fits s cells where
  out : ∀ p, s.inside = some p → s.msgs.live p = true ∧ p ∉ cells

theorem Same.connections (same : Same s t) (cells : List Ptr) (e : Ptr) : t.connections cells e = s.connections cells e := by
  unfold Net.connections
  simp only [(same.kin _).preverse]

theorem Serving.alike (serving : Serving s e) (alike : Alike s t) : Serving t e := by
  obtain ⟨c,block,tcp⟩ := serving.tcp
  refine ⟨serving.real,alike.lasting e c block tcp,fun p live => ?_⟩
  rw [alike.live] at live
  rw [(alike.kin p).pespconn]
  exact serving.own p live

theorem Fits.alike (fits : Fits s cells) (alike : Alike s t) (premot : ∀ written ∈ t.premot, written.1 < linkMax) : Fits t cells := by
  refine ⟨alike.chain fits.chain,fun p live => ?_,fun e real => ?_,fun server listed => ?_,premot⟩
  · rw [alike.live] at live
    rw [alike.opts]
    exact ⟨(fits.nodes p live).1,(fits.nodes p live).2.still alike.toSame⟩
  · rw [alike.connections]
    exact fits.room e real
  · rw [alike.servers] at listed
    exact ⟨(fits.servers server listed).1,(fits.servers server listed).2.alike alike⟩

theorem Fits.still (fits : Fits s cells) (still : Still s t) : Fits t cells := by
  refine fits.alike still.toAlike ?_
  rw [still.premot]
  exact fits.premot

theorem Limited.alike (limited : Limited s cells) (alike : Alike s t) (premot : ∀ written ∈ t.premot, written.1 < linkMax) :
    Limited t cells := by
  refine ⟨limited.toFits.alike alike premot,fun p inside => ?_⟩
  rw [alike.inside] at inside
  rw [alike.live]
  exact limited.out p inside

theorem Limited.still (limited : Limited s cells) (still : Still s t) : Limited t cells := by
  refine limited.alike still.toAlike ?_
  rw [still.premot]
  exact limited.premot

theorem Fits.links (fits : Fits s cells) (block : s.espconn e = some c) : s.links cells e c ≤ mempNumTcpPcb := by
  unfold Net.links
  split
  · exact fits.room e (espconn_some block).1
  split
  · rename_i udp
    rw [List.countP_eq_zero.mpr fun p member => ?_]
    · exact Nat.zero_le _
    · intro same
      rw [beq_iff_eq] at same
      have plain := (fits.nodes p (fits.chain.live p member)).2 c (by rw [same]; exact block)
      rw [udp] at plain
      cases plain
  · exact Nat.zero_le _

theorem Limited.asked (limited : Limited s cells) (asked : Asked s cells e t) : Limited t cells := by
  refine limited.alike asked.toAlike fun written member => ?_
  obtain ⟨c,block,told⟩ := asked.premot
  obtain ⟨k,early,same⟩ := told written member
  have few := limited.links block
  rw [same,UInt8.toNat_ofNat']
  unfold mempNumTcpPcb at few
  unfold linkMax
  omega

theorem Limited.taken (limited : Limited t cells) (fresh : t.msgs.Fresh p) (taken : Taken t cells e grant p u)
    (apart : ∀ server ∈ t.pserverList, grant.pespconn ≠ some server.pespconn) (few : t.connections cells e < mempNumTcpPcb) :
    Limited u (cells ++ [p]) := by
  have joined := taken.joined
  have foreign := fresh_foreign limited.chain fresh
  have old (q : Ptr) (other : q ≠ p) (live : u.msgs.live q = true) : t.msgs.live q = true := by
    rw [joined.live,Function.update_of_ne other] at live
    exact live
  have counts (f : Ptr) : u.connections (cells ++ [p]) f = t.connections cells f + if e = f then 1 else 0 := by
    unfold connections
    rw [List.countP_append,List.countP_singleton,joined.preverse]
    simp only [beq_iff_eq]
    congr 1
    refine List.countP_congr fun q member => ?_
    have other : q ≠ p := fun same => foreign (same ▸ member)
    rw [(joined.kin q other).1.preverse]
  refine ⟨⟨joined.chain,fun q live => ?_,fun f real => ?_,fun server listed => ?_,?_⟩,fun q inside => ?_⟩
  · by_cases here : q = p
    · subst here
      exact ⟨joined.opt,taken.plain⟩
    · obtain ⟨opt,plain⟩ := limited.nodes q (old q here live)
      refine ⟨(joined.kin q here).2.trans opt,fun c block => ?_⟩
      rw [(joined.kin q here).1.pespconn] at block
      exact typed_plain joined.typed plain block
  · rw [counts]
    have before := limited.room f real
    split
    · rename_i same
      rw [same] at few
      omega
    · omega
  · rw [joined.servers] at listed
    obtain ⟨bound,serving⟩ := limited.servers server listed
    obtain ⟨c,block,tcp⟩ := serving.tcp
    refine ⟨bound,serving.real,joined.lasting _ c block tcp,fun q live same => ?_⟩
    by_cases here : q = p
    · subst here
      rcases taken.own with bare | granted
      · exact serving.real (same.symm.trans bare)
      · exact apart server listed (granted.trans (congrArg some same))
    · rw [(joined.kin q here).1.pespconn] at same
      exact serving.own q (old q here live) same
  · rw [joined.premot]
    exact limited.premot
  · rw [joined.inside] at inside
    obtain ⟨live,absent⟩ := limited.out q inside
    have other : q ≠ p := by
      rintro rfl
      rw [fresh.2] at live
      cases live
    refine ⟨by rw [joined.live,Function.update_of_ne other]; exact live,fun member => ?_⟩
    rcases List.mem_append.mp member with before | new
    · exact absent before
    · exact other (List.mem_singleton.mp new)

theorem Fits.removed {behind ahead : List Ptr} (fits : Fits s (behind ++ p :: ahead)) (removed : Removed s (behind ++ ahead) t) :
    Fits t (behind ++ ahead) := by
  have frame := removed.frame
  have pnode := removed.pnode
  have live := removed.live
  have chain := removed.chain
  rw [frame] at pnode live chain ⊢
  refine ⟨chain,?_,fun e real => ?_,fun server listed => ?_,fits.premot⟩
  · dsimp only [Plain] at live pnode ⊢
    rw [live,pnode]
    exact fits.nodes
  · have less : (behind ++ ahead).Sublist (behind ++ p :: ahead) := (List.Sublist.refl _).append (List.sublist_cons_self ..)
    refine le_trans ?_ (fits.room e real)
    dsimp only [connections] at pnode ⊢
    rw [pnode]
    exact less.countP_le
  · obtain ⟨bound,serving⟩ := fits.servers server listed
    refine ⟨bound,serving.real,serving.tcp,?_⟩
    dsimp only at live pnode ⊢
    rw [live,pnode]
    exact serving.own

theorem Fits.emptied {a : Ptr} (fits : Fits s cells) (node : s.msgs.live p = true) (own : (s.msgs.pnode p).pespconn = a)
    (emptied : {s with espconns := Function.update s.espconns a none}.updateMsg p (fun m => {m with pespconn := null}) = some t) :
    Fits t cells := by
  obtain ⟨_,rfl⟩ := updateMsg_some emptied
  have kin (q : Ptr) (other : q ≠ p) : (s.msgs.stored p {s.msgs.pnode p with pespconn := null}).pnode q = s.msgs.pnode q :=
    Function.update_of_ne other ..
  have mine : (s.msgs.stored p {s.msgs.pnode p with pespconn := null}).pnode p = {s.msgs.pnode p with pespconn := null} :=
    Function.update_self ..
  refine ⟨fits.chain.stored p _,fun q live => ?_,fun e real => ?_,fun server listed => ?_,fits.premot⟩
  · obtain ⟨opt,plain⟩ := fits.nodes q live
    by_cases here : q = p
    · subst here
      refine ⟨(congrArg EspconnMsg.espconnOpt mine).trans opt,plain_null (congrArg EspconnMsg.pespconn mine)⟩
    · refine ⟨(congrArg EspconnMsg.espconnOpt (kin q here)).trans opt,fun c block => ?_⟩
      rw [show (s.msgs.stored p {s.msgs.pnode p with pespconn := null}).pnode q = s.msgs.pnode q from kin q here] at block
      exact typed_plain (same_free s a).typed plain block
  · have same (q : Ptr) : ((s.msgs.stored p {s.msgs.pnode p with pespconn := null}).pnode q).preverse = (s.msgs.pnode q).preverse := by
      by_cases here : q = p
      · subst here
        rw [mine]
      · exact congrArg EspconnMsg.preverse (kin q here)
    refine le_trans (le_of_eq ?_) (fits.room e real)
    dsimp only [connections]
    simp only [same]
  · obtain ⟨bound,real,⟨c,block,tcp⟩,foreign⟩ := fits.servers server listed
    refine ⟨bound,real,⟨c,?_,tcp⟩,fun q live same => ?_⟩
    · exact (Function.update_of_ne (fun same => foreign p node (own.trans same.symm)) ..).trans block
    · by_cases here : q = p
      · subst here
        exact real (same.symm.trans (congrArg EspconnMsg.pespconn mine))
      · rw [show (s.msgs.stored p {s.msgs.pnode p with pespconn := null}).pnode q = s.msgs.pnode q from kin q here] at same
        exact foreign q live same

theorem Fits.freed (fits : Fits s cells) (foreign : p ∉ cells) (freed : s.freeMsg p = some t) : Fits t cells := by
  obtain ⟨_,rfl⟩ := freeMsg_some freed
  have left (q : Ptr) (live : (s.msgs.freed p).live q = true) : s.msgs.live q = true := by
    by_cases same : q = p
    · subst same
      exact absurd live (by simp [Heap.freed])
    · simpa [Heap.freed,same] using live
  refine ⟨fits.chain.freed foreign,fun q live => fits.nodes q (left q live),fits.room,fun server listed => ?_,fits.premot⟩
  obtain ⟨bound,serving⟩ := fits.servers server listed
  exact ⟨bound,serving.real,serving.tcp,fun q live => serving.own q (left q live)⟩

theorem Fits.unmanaged (fits : Fits s cells) (live : s.msgs.live p = true) : (s.msgs.pnode p).espconnManualRecvDisabled = false := by
  unfold EspconnMsg.espconnManualRecvDisabled
  rw [(fits.nodes p live).1]
  rfl

theorem Fits.aside (fits : Fits s cells) (inside : Option Ptr) (processed : List Nat) : Fits {s with inside,processed} cells := by
  refine ⟨fits.chain,fits.nodes,fits.room,fun server listed => ?_,fits.premot⟩
  obtain ⟨bound,real,tcp,own⟩ := fits.servers server listed
  exact ⟨bound,real,tcp,own⟩

theorem taskEnd_limited (fits : Fits s cells) (foreign : p ∉ cells) :
    Settles (fun turns => s.taskEnd turns p) fun t => ∃ next, Limited t next := by
  unfold taskEnd
  refine .bind (.option fun m node => node_some node) fun m ⟨node,same⟩ => ?_
  subst same
  refine .bind (P:=fun t => Fits t cells) ?_ fun t fits => .done ⟨cells,fits.aside _ _,?_⟩
  · unfold espconnTcpMempFree
    refine .bind (.option fun m node => (node_some node).2) fun m same => ?_
    subst same
    unfold mempUnlink
    simp only [fits.unmanaged node.2]
    refine .bind (.done rfl) fun u same => ?_
    subst same
    refine .bind (P:=fun t => Fits t cells) (.option fun v emptied => ?_) fun v fits => .option fun t freed => fits.freed foreign freed
    unfold mempEspconn at emptied
    split at emptied
    · simp only [Option.bind_eq_bind,Option.bind_eq_some_iff] at emptied
      obtain ⟨_,_,written⟩ := emptied
      exact fits.emptied node.2 rfl written
    · cases emptied
      exact fits
  · intro q inside
    cases inside

theorem calls_limited (fits : Fits s cells) (node : s.msgs.Node p) (foreign : p ∉ cells) :
    Calls s p fun t => ∃ next, Limited t next := by
  intro u e callback still _
  have fits := fits.still still
  unfold taskCall
  refine .bind (.option fun _ _ => trivial) fun c _ => ?_
  refine .bind (.option fun _ _ => trivial) fun tcp _ => ?_
  split
  · refine .done ⟨cells,fits.aside _ _,fun q inside => ?_⟩
    cases inside
    exact ⟨by rw [show u.msgs.live = s.msgs.live from still.live]; exact node.2,foreign⟩
  · exact taskEnd_limited fits foreign

theorem unlink_fits (fits : Fits s cells) (member : p ∈ cells) :
    Settles (fun turns => s.taskUnlink turns p) fun t => ∃ next, Fits t next ∧ p ∉ next ∧ t.msgs.Node p := by
  unfold taskUnlink
  refine .bind (.option fun m node => node_some node) fun m ⟨node,same⟩ => ?_
  subst same
  simp only [fits.unmanaged node.2]
  obtain ⟨behind,ahead,rfl⟩ := List.append_of_mem member
  refine (delete_removes fits.chain).settles.mono fun t removed => ?_
  exact ⟨_,fits.removed removed,fits.chain.foreign_rest,node.1,by rw [removed.live]; exact node.2⟩

theorem task_limited (limited : Limited s cells) (killOldest : Pcbs → Pcbs) :
    Settles (fun turns => s.espconnTask turns killOldest) fun t => ∃ next, Limited t next := by
  have popped (queue : List (Signal × Ptr)) : Limited {s with queue} cells := limited.still (still_fields s s.pcbs queue)
  refine task_settles limited.chain (fun queue => ⟨cells,popped queue⟩) fun queue p member => ?_
  refine (unlink_fits (popped queue).toFits member).mono fun t ⟨next,fits,foreign,node⟩ => ?_
  have fits := fits.still (still_fields t (killOldest t.pcbs) t.queue)
  have calls := calls_limited fits node foreign
  have plain := (fits.nodes p node.2).2
  exact ⟨reconnect_calls (fun _ _ _ _ => plain) calls (taskEnd_limited fits foreign),disconnected_calls (fun _ _ _ _ => plain) calls⟩

theorem listens_limited {listen : Option Ptr} (limited : Limited s cells)
    (own : ∀ p, s.msgs.live p = true → (s.msgs.pnode p).pespconn ≠ e) :
    Settles (fun turns => s.espconnAccept turns e listen) fun r => ∃ next, Limited r.1 next := by
  unfold espconnAccept
  have still : ∃ next, Limited s next := ⟨cells,limited⟩
  by_cases real : e = null
  · simp only [if_pos real]
    exact .done still
  simp only [if_neg real]
  refine .bind (.option fun c block => block) fun c block => ?_
  split
  · exact .done still
  rename_i tcp
  refine .bind (limited.chain.walkNodes_settles fun _ _ => trivial) fun used _ => ?_
  split
  · exact .done still
  cases listen with
  | none => exact .done still
  | some lpcb =>
    refine .bind (.option fun _ _ => trivial) fun _ _ => ?_
    refine .bind (.option fun t state => still_setState state) fun t told => .done ⟨cells,?_⟩
    have serving : Serving s e := ⟨real,⟨c,(espconn_some block).2,Bool.eq_true_of_not_eq_false tcp⟩,own⟩
    have more := limited.still told
    refine ⟨⟨more.chain,more.nodes,more.room,fun server listed => ?_,more.premot⟩,more.out⟩
    rcases List.mem_append.mp listed with old | new
    · obtain ⟨bound,real,tcp,own⟩ := more.servers server old
      exact ⟨bound,real,tcp,own⟩
    · rw [List.mem_singleton.mp new]
      obtain ⟨real,tcp,own⟩ := serving.alike told.toAlike
      have bound : (UInt8.ofNat mempNumTcpPcb).toNat ≤ mempNumTcpPcb := by decide
      exact ⟨bound,real,tcp,own⟩

theorem writeFirst_mem {α : Type} {test : α → Bool} {write : α → α} {l : List α} {a : α} (member : a ∈ writeFirst test write l) :
    a ∈ l ∨ ∃ b ∈ l, a = write b := by
  induction l with
  | nil => cases member
  | cons b rest ih =>
    unfold writeFirst at member
    split at member
    · rcases List.mem_cons.mp member with here | there
      · exact .inr ⟨b,List.mem_cons_self ..,here⟩
      · exact .inl (List.mem_cons_of_mem _ there)
    · rcases List.mem_cons.mp member with here | there
      · exact .inl (here ▸ List.mem_cons_self ..)
      · rcases ih there with old | ⟨d,old,same⟩
        · exact .inl (List.mem_cons_of_mem _ old)
        · exact .inr ⟨d,List.mem_cons_of_mem _ old,same⟩

theorem setMax_limited {num : UInt8} {r : Net × Int} (limited : Limited s cells) (told : s.espconnTcpSetMaxConAllow e num = some r) :
    Limited r.1 cells := by
  unfold espconnTcpSetMaxConAllow at told
  split at told
  · cases told
    exact limited
  rename_i fine
  simp only [Option.bind_eq_bind,Option.bind_eq_some_iff] at told
  obtain ⟨c,_,told⟩ := told
  split at told
  · cases told
    exact limited
  · cases told
    refine ⟨⟨limited.chain,limited.nodes,limited.room,fun server listed => ?_,limited.premot⟩,limited.out⟩
    rcases writeFirst_mem listed with old | ⟨before,old,rfl⟩
    · obtain ⟨bound,real,tcp,own⟩ := limited.servers server old
      exact ⟨bound,real,tcp,own⟩
    · obtain ⟨_,real,tcp,own⟩ := limited.servers before old
      exact ⟨Nat.le_of_not_lt (not_or.mp fine).2,real,tcp,own⟩

theorem info_limited (limited : Limited s cells) :
    Settles (fun turns => s.espconnGetConnectionInfo turns e) fun r => ∃ next, Limited r.1 next := by
  by_cases real : e = null
  · unfold espconnGetConnectionInfo
    simp only [if_pos real]
    exact .done ⟨cells,limited⟩
  · exact (info_settles limited.chain real).mono fun r ⟨c,block,informed⟩ => ⟨cells,limited.asked (informed.asked block)⟩

def Exceeds (s : Net) (e : Ptr) (t : Net) : Prop := ∃ cells server p, Chain s.msgs s.plinkActive cells ∧ s.server e = some server ∧
  server.countOpt.toNat ≤ s.connections cells e ∧ Chain t.msgs t.plinkActive (cells ++ [p])

-- espconn_tcp_set_max_con_allow has not left the limit of an espconn below the
-- connections that it has when the next one comes.
def Below (s : Net) : Event → Prop
  | .incoming e _ _ => ∀ server, s.server e = some server → ∀ cells, Chain s.msgs s.plinkActive cells →
      s.connections cells e ≤ server.countOpt.toNat
  | _ => True

theorem server_some {server : Server} (listed : s.server e = some server) : server ∈ s.pserverList ∧ server.pespconn = e := by
  unfold Net.server at listed
  exact ⟨List.mem_of_find?_eq_some listed,beq_iff_eq.mp (List.find?_some (p:=fun server : Server => server.pespconn == e) listed)⟩

theorem Limited.less {server : Server} (limited : Limited s cells) (listed : s.server e = some server) (block : s.espconn e = some c)
    (below : s.connections cells e ≤ server.countOpt.toNat) (room : UInt8.ofNat (s.links cells e c) ≠ server.countOpt) :
    s.connections cells e < server.countOpt.toNat := by
  obtain ⟨member,own⟩ := server_some listed
  obtain ⟨c',block',tcp⟩ := (limited.servers server member).2.tcp
  rw [own] at block'
  cases (espconn_some block).2.symm.trans block'
  refine lt_of_le_of_ne below fun same => room ?_
  rw [show s.links cells e c = s.connections cells e from if_pos tcp,same,UInt8.ofNat_toNat]

theorem incoming_limited (limited : Limited s cells) (allowed : s.Allowed (.incoming e x grant))
    (below : s.Below (.incoming e x grant)) :
    Settles (fun turns => s.espconnTcpAccept turns e x grant) fun r => (∃ next, Limited r.1 next) ∧ ¬ s.Exceeds e r.1 := by
  obtain ⟨listens,fresh,free⟩ := allowed
  refine (accept_cases limited.chain fresh fun a granted => (free a granted).2).mono fun r outcome => ?_
  cases outcome with
  | declined t before after =>
    have left : Limited t cells := by
      rcases before with still | asked
      · exact limited.still still
      · exact limited.asked asked
    have last := left.still after
    refine ⟨⟨cells,last⟩,fun ⟨others,server,p,chain,_,_,further⟩ => ?_⟩
    cases limited.chain.unique chain
    have longer := congrArg List.length (last.chain.unique further)
    rw [List.length_append,List.length_singleton] at longer
    omega
  | joined c t p block asked room taken =>
    obtain ⟨server,listed⟩ := Option.ne_none_iff_exists'.mp listens
    have less := limited.less listed block (below server listed cells limited.chain) (room server listed)
    obtain ⟨member,_⟩ := server_some listed
    have bound := (limited.servers server member).1
    obtain ⟨real,absent⟩ := fresh p taken.granted
    have new : t.msgs.Fresh p := ⟨real,by rw [asked.live]; exact absent⟩
    refine ⟨⟨_,(limited.asked asked).taken new taken (fun other there granted => ?_) ?_⟩,
      fun ⟨others,server',q,chain,listed',more,_⟩ => ?_⟩
    · rw [asked.servers] at there
      obtain ⟨c',block',_⟩ := (limited.servers other there).2.tcp
      rw [(free _ granted).2.2] at block'
      cases block'
    · rw [asked.connections]
      omega
    · cases limited.chain.unique chain
      cases listed.symm.trans listed'
      omega

-- Connections come in and are closed, and limits are set. The application listens
-- with espconns of its own, and leaves the options alone.
def Concerns (s : Net) : Event → Prop
  | .connect .. => False
  | .create .. => False
  | .delete .. => False
  | .setOpt .. => False
  | .clearOpt .. => False
  | .accept e _ => ∀ p, s.msgs.live p = true → (s.msgs.pnode p).pespconn ≠ e
  | _ => True

def Limiting (s : Net) (event : Event) (t : Net) : Prop := s.Step event t ∧ s.Concerns event

theorem perform_limited {event : Event} (limited : Limited s cells) (allowed : s.Allowed event) (concerns : s.Concerns event)
    (below : s.Below event) : Settles (fun turns => s.perform turns event) fun t => ∃ next, Limited t next := by
  have told {f : Nat → Option (Net × Int)} (still : Settles f fun r => Still s r.1) :
      Settles (fun turns => (f turns).map Prod.fst) fun t => ∃ next, Limited t next :=
    still.map _ fun _ still => ⟨cells,limited.still still⟩
  cases event with
  | connect e wifi zalloc T => exact concerns.elim
  | accept e listen => exact (listens_limited limited concerns).map _ fun _ left => left
  | create e upcb zalloc => exact concerns.elim
  | disconnect e err => exact told (still_disconnect limited.chain)
  | abort e => exact told (still_abort limited.chain)
  | delete e err => exact concerns.elim
  | setOpt e opt => exact concerns.elim
  | clearOpt e opt => exact concerns.elim
  | setMax e num => exact (Settles.option fun r told => ⟨cells,setMax_limited limited told⟩).map _ fun _ left => left
  | info e => exact (info_limited limited).map _ fun _ left => left
  | sent e posts => exact told (still_sent limited.chain posts)
  | application e tcp => exact .option fun t written => ⟨cells,limited.still (still_application written)⟩
  | incoming e x grant => exact (incoming_limited limited allowed below).map _ fun _ left => left.1
  | connected x => exact .option fun t connected => ⟨cells,limited.still (still_connected connected)⟩
  | receive x state => exact .option fun t received => ⟨cells,limited.still (still_receive received)⟩
  | closed x err => exact .option fun t closed => ⟨cells,limited.still (still_close closed)⟩
  | failed x err => exact .option fun t failed => ⟨cells,limited.still (still_failed failed)⟩
  | lwip pcbs => exact .done ⟨cells,limited.still (still_fields s pcbs s.queue)⟩
  | task killOldest =>
    unfold perform
    dsimp only
    split
    · exact task_limited limited killOldest
    · exact .fails
  | finish => exact .bind (.option fun p inside => inside) fun p inside => taskEnd_limited limited.toFits (limited.out p inside).2

theorem start_limited (espconns : Ptr → Option Espconn) (pcbs : Pcbs) : Limited (start espconns pcbs) [] := by
  refine ⟨⟨.empty _,fun _ live => ?_,fun _ _ => Nat.zero_le _,fun _ listed => ?_,fun _ member => ?_⟩,fun _ inside => ?_⟩
  · cases live
  · cases listed
  · cases member
  · cases inside

end Net

-- No index of premot is written that it has not, and no connection comes to an
-- espconn that has as many as it may, where no limit is below what there is.
theorem limits_kept (espconns : Ptr → Option Espconn) (pcbs : Pcbs) (events : List Event) (s : Net)
    (path : Runs (fun s event t => s.Limiting event t ∧ s.Below event) (Net.start espconns pcbs) events s) :
    (∀ written ∈ s.premot, written.1 < linkMax) ∧
      ∀ e x grant t, s.Limiting (.incoming e x grant) t → s.Below (.incoming e x grant) → ¬ s.Exceeds e t := by
  have limited : ∃ cells, Net.Limited s cells := by
    refine path.keeps (I:=fun s => ∃ cells, Net.Limited s cells) ⟨[],Net.start_limited espconns pcbs⟩ ?_
    rintro s event t ⟨cells,limited⟩ ⟨⟨⟨allowed,ends⟩,concerns⟩,below⟩
    exact (Net.perform_limited limited allowed concerns below).holds ends
  obtain ⟨cells,limited⟩ := limited
  refine ⟨limited.premot,fun e x grant t ⟨⟨allowed,ends⟩,_⟩ below => ?_⟩
  exact ((Net.incoming_limited limited allowed below).map (Q:=fun t => ¬ s.Exceeds e t) Prod.fst fun _ left => left.2).holds ends

def listener (e : Ptr) : Option Espconn :=
  if e = 21 then some ⟨.tcp (some ⟨0,80,0,0,false,false,false,false⟩),.none,0⟩ else none

def granted (p a : Ptr) : Grant := ⟨some p,some a,true⟩

theorem granted_allowed {s : Net} {e x p a : Ptr} (listens : s.server e ≠ none) (fresh : s.msgs.Fresh p) (real : a ≠ null)
    (other : a ≠ e) (absent : s.espconns a = none) : s.Allowed (.incoming e x (granted p a)) := by
  refine ⟨listens,fun q same => ?_,fun b same => ?_⟩
  · cases same
    exact fresh
  · cases same
    exact ⟨real,other,absent⟩

def taken : List Event := [.accept 21 (some 31),.incoming 21 2 (granted 1 41)]

theorem taken_limited : ∃ s, Runs (fun s event t => s.Limiting event t ∧ s.Below event) (Net.start listener noPcbs) taken s ∧
    (∀ written ∈ s.premot, written.1 < linkMax) ∧
      ∀ e x grant t, s.Limiting (.incoming e x grant) t → s.Below (.incoming e x grant) → ¬ s.Exceeds e t := by
  have path : ∃ s, Runs (fun s event t => s.Limiting event t ∧ s.Below event) (Net.start listener noPcbs) taken s :=
    ⟨_,.first ⟨⟨⟨trivial,.late 2 fun _ => rfl⟩,fun _ live => by cases live⟩,trivial⟩ <|
      .first ⟨⟨⟨granted_allowed (Option.some_ne_none _) ⟨by decide,rfl⟩ (by decide) (by decide) rfl,.late 2 fun _ => rfl⟩,trivial⟩,
        fun _ _ cells chain => by rw [Chain.nil chain]; exact Nat.zero_le _⟩ .nil⟩
  obtain ⟨s,path⟩ := path
  exact ⟨s,path,limits_kept listener noPcbs taken s path⟩

def lowered : List Event := [.accept 21 (some 31),.incoming 21 2 (granted 1 41),.incoming 21 3 (granted 4 44),.setMax 21 1]

theorem lowered_runs : ∃ s t, Runs Net.Limiting (Net.start listener noPcbs) lowered s ∧
    s.Limiting (.incoming 21 5 (granted 6 46)) t ∧ s.Exceeds 21 t :=
  ⟨_,_,.first ⟨⟨trivial,.late 3 fun _ => rfl⟩,fun _ live => by cases live⟩ <|
    .first ⟨⟨granted_allowed (Option.some_ne_none _) ⟨by decide,rfl⟩ (by decide) (by decide) rfl,.late 3 fun _ => rfl⟩,trivial⟩ <|
    .first ⟨⟨granted_allowed (Option.some_ne_none _) ⟨by decide,rfl⟩ (by decide) (by decide) rfl,.late 3 fun _ => rfl⟩,trivial⟩ <|
    .first ⟨⟨trivial,.late 3 fun _ => rfl⟩,trivial⟩ .nil,
    ⟨⟨granted_allowed (Option.some_ne_none _) ⟨by decide,rfl⟩ (by decide) (by decide) rfl,.late 3 fun _ => rfl⟩,trivial⟩,
    [1,4],⟨21,31,1⟩,6,⟨⟨rfl,by decide,rfl,by decide,rfl⟩,by decide,by decide⟩,rfl,by decide,
    ⟨⟨rfl,by decide,rfl,by decide,rfl,by decide,rfl⟩,by decide,by decide⟩⟩

-- Two is not one, so that a third comes.
theorem lowered_exceeds : ¬ (∀ espconns pcbs events s, Runs Net.Limiting (Net.start espconns pcbs) events s →
    (∀ written ∈ s.premot, written.1 < linkMax) ∧ ∀ e x grant t, s.Limiting (.incoming e x grant) t → ¬ s.Exceeds e t) := by
  intro always
  obtain ⟨s,t,path,step,exceeds⟩ := lowered_runs
  exact (always listener noPcbs lowered s path).2 21 5 _ t step exceeds

end NonosLinkLayer.Connections
