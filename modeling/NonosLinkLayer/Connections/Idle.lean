import NonosLinkLayer.Connections.Net

namespace NonosLinkLayer.Idle
open HeapList Transitions
open NonosLinkLayer.Espconn (errOk)
open NonosLinkLayer.Connections.Net (writeFirst)

-- Of an espconn_msg, what the idle check of a server uses: of one in pserver_list, and of
-- one that espconn_tcp_accept has made.
structure Server where
  pespconn : Ptr
  timeout : UInt32

structure Accepted where
  preverse : Ptr
  timeout : UInt32
  recvCheck : UInt32

structure Pcb where
  poll : Bool
  callbackArg : Option Accepted

-- `closed` are the blocks for which SIG_ESPCONN_CLOSE was posted, `abandoned` those that
-- got a RST instead.
structure State where
  pserverList : List Server
  pcbs : Ptr → Option Pcb
  closed : List Ptr
  abandoned : List Ptr

-- What happens is that the application calls, or that lwIP does, of which `ok` is an err
-- of ERR_OK and `err` what tcp_close answers in it.
inductive Event where
  | server (e : Ptr)
  | delete (e : Ptr) (linkCnt : Nat)
  | regist (e : Ptr) (interval : UInt32) (typeFlag : UInt8) (pnode : Option Ptr)
  | accept (e x : Ptr)
  | poll (x : Ptr) (established : Bool) (err : Int)
  | recv (x : Ptr) (callback data ok : Bool) (err : Int)
  | tcpRecv (x : Ptr) (readbuf data ok : Bool) (err : Int)
  | sent (x : Ptr)
  | disconnect (x : Ptr) (abort : Bool) (err : Int)
  | forget (x : Ptr)
  | freed (x : Ptr)

namespace State

def put (s : State) (x : Ptr) (pcb : Pcb) : State := {s with pcbs := Function.update s.pcbs x (some pcb)}

def checked (s : State) (x : Ptr) (m : Accepted) (recvCheck : UInt32) : State := s.put x ⟨true,some {m with recvCheck}⟩

def reset (s : State) (x : Ptr) : State :=
  match s.pcbs x with
  | some ⟨poll,some m⟩ => s.put x ⟨poll,some {m with recvCheck := 0}⟩
  | _ => s

-- espconn_server_close, which is tried again by the next poll when tcp_close fails.
def espconnServerClose (s : State) (x : Ptr) (abort : Bool) (err : Int) : State :=
  if abort = true ∨ err = errOk then
    {s with pcbs := Function.update s.pcbs x ((s.pcbs x).map fun pcb => {pcb with poll := false}),closed := s.closed ++ [x]}
  else s

def espconnTcpServer (s : State) (e : Ptr) : State := {s with pserverList := s.pserverList ++ [⟨e,0x0a⟩]}

-- `linkCnt` is what espconn_get_connection_info counts.
def espconnTcpDelete (s : State) (e : Ptr) (linkCnt : Nat) : State :=
  if e = null ∨ linkCnt ≠ 0 then s
  else {s with pserverList := s.pserverList.eraseP fun server => server.pespconn == e}

-- `pnode` is what espconn_find_connection gives, as the block whose node it is.
def espconnRegistTime (s : State) (e : Ptr) (interval : UInt32) (typeFlag : UInt8) (pnode : Option Ptr) : State :=
  if e = null ∨ typeFlag > 1 then s
  else if typeFlag = 1 then
    match pnode with
    | none => s
    | some x =>
      match s.pcbs x with
      | some ⟨poll,some m⟩ => s.put x ⟨poll,some {m with timeout := interval}⟩
      | _ => s
  else {s with pserverList := writeFirst (fun server => server.pespconn == e) (fun server => {server with timeout := interval}) s.pserverList}

def espconnServerPoll (s : State) (x : Ptr) (established : Bool) (err : Int) : State :=
  match s.pcbs x with
  | none => s
  | some ⟨_,none⟩ => {s.put x ⟨false,none⟩ with abandoned := s.abandoned ++ [x]}
  | some ⟨_,some m⟩ =>
    if established = true then
      let recvCheck := m.recvCheck + 1
      if m.timeout ≠ 0 then
        if m.timeout ≤ recvCheck then (s.checked x m 0).espconnServerClose x false err else s.checked x m recvCheck
      else
        match s.pserverList.find? fun server => server.pespconn == m.preverse with
        | none => s.checked x m recvCheck
        | some server =>
          if server.timeout ≠ 0 then
            if server.timeout ≤ recvCheck then (s.checked x m 0).espconnServerClose x false err else s.checked x m recvCheck
          else s.checked x m 0
    else s.espconnServerClose x false err

-- espconn_server_recv. Without a receive callback nothing is noted.
def espconnServerRecv (s : State) (x : Ptr) (callback data ok : Bool) (err : Int) : State :=
  let s := if callback = true ∧ ok = true ∧ data = true then s.reset x else s
  if ok = true ∧ data = false then s.espconnServerClose x false err else s

-- espconn_tcp_recv, where `readbuf` says that there is one or memory for it.
def espconnTcpRecv (s : State) (x : Ptr) (readbuf data ok : Bool) (err : Int) : State :=
  if readbuf = true ∧ ok = true then
    if data = true then s.reset x else (s.reset x).espconnServerClose x false err
  else s

def perform (s : State) : Event → State
  | .server e => s.espconnTcpServer e
  | .delete e linkCnt => s.espconnTcpDelete e linkCnt
  | .regist e interval typeFlag pnode => s.espconnRegistTime e interval typeFlag pnode
  | .accept e x => s.put x ⟨true,some ⟨e,0,0⟩⟩
  | .poll x established err => s.espconnServerPoll x established err
  | .recv x callback data ok err => s.espconnServerRecv x callback data ok err
  | .tcpRecv x readbuf data ok err => s.espconnTcpRecv x readbuf data ok err
  | .sent x => s.reset x
  | .disconnect x abort err => s.espconnServerClose x abort err
  | .forget x => {s with pcbs := Function.update s.pcbs x ((s.pcbs x).map fun pcb => {pcb with callbackArg := none})}
  | .freed x => {s with pcbs := Function.update s.pcbs x none}

def Allowed (s : State) : Event → Prop
  | .accept _ x => s.pcbs x = none
  | .poll x _ _ => ∃ arg, s.pcbs x = some ⟨true,arg⟩
  | .recv x _ _ _ _ | .tcpRecv x _ _ _ _ | .sent x | .disconnect x _ _ => ∃ poll m, s.pcbs x = some ⟨poll,some m⟩
  | _ => True

def Step (s : State) (event : Event) (next : State) : Prop := s.Allowed event ∧ s.perform event = next

def start : State := ⟨[],fun _ => none,[],[]⟩

-- The time an accepted connection has, if it has one: zero is for ever.
def limit (s : State) (m : Accepted) : Option UInt32 :=
  if m.timeout ≠ 0 then some m.timeout
  else (s.pserverList.find? fun server => server.pespconn == m.preverse).map Server.timeout

end State

def Event.polls (x : Ptr) : Event → Bool
  | .poll y established _ => y == x && established
  | _ => false

def Event.Touches (x : Ptr) : Event → Prop
  | .recv y callback data ok _ => y = x ∧ callback = true ∧ ok = true ∧ data = true
  | .tcpRecv y readbuf _ ok _ => y = x ∧ readbuf = true ∧ ok = true
  | .sent y | .accept _ y => y = x
  | _ => False

def polls (x : Ptr) (events : List Event) : Nat := events.countP (Event.polls x)

def Event.Steady (x e : Ptr) : Event → Prop
  | .poll y established err => y = x → established = true ∧ err = errOk
  | .recv y callback data ok _ => y = x → ok = false ∨ callback = false ∧ data = true
  | .tcpRecv y readbuf _ ok _ => y = x → readbuf = false ∨ ok = false
  | .sent y | .disconnect y _ _ | .forget y | .freed y => y ≠ x
  | .regist f _ typeFlag pnode => if typeFlag = 1 then pnode ≠ some x else f ≠ e
  | .delete f _ => f ≠ e
  | .server _ | .accept _ _ => True

namespace State
variable {s next : State} {x y : Ptr} {m m' : Accepted} {poll abort : Bool} {err : Int} {recvCheck L : UInt32} {event : Event}

@[simp] theorem put_self (pcb : Pcb) : (s.put x pcb).pcbs x = some pcb := Function.update_self ..
@[simp] theorem put_other (pcb : Pcb) (other : y ≠ x) : (s.put x pcb).pcbs y = s.pcbs y := Function.update_of_ne other ..
@[simp] theorem put_closed (pcb : Pcb) : (s.put x pcb).closed = s.closed := rfl
@[simp] theorem put_list (pcb : Pcb) : (s.put x pcb).pserverList = s.pserverList := rfl

theorem put_arg (pcb : Pcb) (there : (s.put x pcb).pcbs y = some ⟨poll,some m⟩) :
    (y = x ∧ pcb = ⟨poll,some m⟩) ∨ (y ≠ x ∧ s.pcbs y = some ⟨poll,some m⟩) := by
  by_cases here : y = x
  · subst y
    exact .inl ⟨rfl,by simpa using there⟩
  · exact .inr ⟨here,by simpa [here] using there⟩

theorem reset_arg (there : (s.reset x).pcbs y = some ⟨poll,some m⟩) :
    (y = x ∧ m.recvCheck = 0) ∨ (y ≠ x ∧ s.pcbs y = some ⟨poll,some m⟩) := by
  unfold reset at there
  split at there
  · rcases put_arg _ there with ⟨here,same⟩ | other
    · cases same
      exact .inl ⟨here,rfl⟩
    · exact .inr other
  · rename_i bare
    refine .inr ⟨?_,there⟩
    rintro rfl
    exact bare _ _ there

theorem reset_other (other : y ≠ x) : (s.reset x).pcbs y = s.pcbs y := by
  unfold reset
  split <;> simp [other]

@[simp] theorem reset_closed : (s.reset x).closed = s.closed := by
  unfold reset
  split <;> rfl

@[simp] theorem reset_list : (s.reset x).pserverList = s.pserverList := by
  unfold reset
  split <;> rfl

theorem close_arg (there : (s.espconnServerClose x abort err).pcbs y = some ⟨poll,some m⟩) :
    ∃ before, s.pcbs y = some ⟨before,some m⟩ := by
  unfold espconnServerClose at there
  split at there
  · by_cases here : y = x
    · subst y
      simp only [Function.update_self,Option.map_eq_some_iff] at there
      obtain ⟨⟨before,arg⟩,found,same⟩ := there
      cases same
      exact ⟨_,found⟩
    · exact ⟨poll,(Function.update_of_ne here _ _).symm.trans there⟩
  · exact ⟨poll,there⟩

theorem close_other (other : y ≠ x) : (s.espconnServerClose x abort err).pcbs y = s.pcbs y := by
  unfold espconnServerClose
  split
  · exact Function.update_of_ne other _ _
  · rfl

theorem close_count (other : y ≠ x) : (s.espconnServerClose x abort err).closed.count y = s.closed.count y := by
  unfold espconnServerClose
  split
  · simp [Ne.symm other]
  · rfl

@[simp] theorem close_list : (s.espconnServerClose x abort err).pserverList = s.pserverList := by
  unfold espconnServerClose
  split <;> rfl

def idleCheck (s : State) (x : Ptr) (m : Accepted) (err : Int) : State :=
  match s.limit m with
  | none => s.checked x m (m.recvCheck + 1)
  | some L =>
    if L = 0 then s.checked x m 0
    else if L ≤ m.recvCheck + 1 then (s.checked x m 0).espconnServerClose x false err
    else s.checked x m (m.recvCheck + 1)

theorem poll_established (there : s.pcbs x = some ⟨poll,some m⟩) (err : Int) :
    s.espconnServerPoll x true err = s.idleCheck x m err := by
  unfold espconnServerPoll idleCheck limit
  rw [there]
  by_cases own : m.timeout = 0
  · cases found : s.pserverList.find? fun server => server.pespconn == m.preverse with
    | none => simp [own,found]
    | some server => by_cases never : server.timeout = 0 <;> simp [own,found,never]
  · simp [own]

theorem idleCheck_arg (there : (s.idleCheck x m err).pcbs y = some ⟨poll,some m'⟩) :
    (y = x ∧ (m'.recvCheck = 0 ∨ m'.recvCheck = m.recvCheck + 1)) ∨ (y ≠ x ∧ ∃ before, s.pcbs y = some ⟨before,some m'⟩) := by
  have counted : ∀ {recvCheck before}, (s.checked x m recvCheck).pcbs y = some ⟨before,some m'⟩ →
      recvCheck = 0 ∨ recvCheck = m.recvCheck + 1 →
      (y = x ∧ (m'.recvCheck = 0 ∨ m'.recvCheck = m.recvCheck + 1)) ∨ (y ≠ x ∧ ∃ before, s.pcbs y = some ⟨before,some m'⟩) := by
    intro recvCheck before there value
    rcases put_arg _ there with ⟨here,same⟩ | ⟨other,there'⟩
    · cases same
      exact .inl ⟨here,value⟩
    · exact .inr ⟨other,before,there'⟩
  unfold idleCheck at there
  split at there
  · exact counted there (.inr rfl)
  · split_ifs at there
    · exact counted there (.inl rfl)
    · obtain ⟨before,there'⟩ := close_arg there
      exact counted there' (.inl rfl)
    · exact counted there (.inr rfl)

theorem poll_arg (there : (s.espconnServerPoll x established err).pcbs y = some ⟨poll,some m'⟩) :
    m'.recvCheck = 0 ∨ ∃ before m, s.pcbs y = some ⟨before,some m⟩ ∧
      (m'.recvCheck = m.recvCheck ∨ y = x ∧ established = true ∧ m'.recvCheck = m.recvCheck + 1) := by
  cases found : s.pcbs x with
  | none =>
    simp only [espconnServerPoll,found] at there
    exact .inr ⟨_,_,there,.inl rfl⟩
  | some pcb =>
    obtain ⟨before,arg⟩ := pcb
    cases arg with
    | none =>
      simp only [espconnServerPoll,found] at there
      rcases put_arg _ there with ⟨_,same⟩ | ⟨_,there'⟩
      · cases same
      · exact .inr ⟨_,_,there',.inl rfl⟩
    | some m =>
      cases established with
      | true =>
        rw [poll_established found] at there
        rcases idleCheck_arg there with ⟨rfl,zero | more⟩ | ⟨_,before',there'⟩
        · exact .inl zero
        · exact .inr ⟨before,m,found,.inr ⟨rfl,rfl,more⟩⟩
        · exact .inr ⟨before',m',there',.inl rfl⟩
      | false =>
        simp only [espconnServerPoll,found,Bool.false_eq_true,if_false] at there
        obtain ⟨before',there'⟩ := close_arg there
        exact .inr ⟨before',m',there',.inl rfl⟩

theorem regist_arg {e : Ptr} {interval : UInt32} {typeFlag : UInt8} {pnode : Option Ptr}
    (there : (s.espconnRegistTime e interval typeFlag pnode).pcbs y = some ⟨poll,some m'⟩) :
    ∃ m, s.pcbs y = some ⟨poll,some m⟩ ∧ m'.recvCheck = m.recvCheck := by
  unfold espconnRegistTime at there
  split_ifs at there
  · exact ⟨m',there,rfl⟩
  · split at there
    · exact ⟨m',there,rfl⟩
    · split at there
      · rename_i found
        rcases put_arg _ there with ⟨rfl,same⟩ | ⟨_,there'⟩
        · cases same
          exact ⟨_,found,rfl⟩
        · exact ⟨m',there',rfl⟩
      · exact ⟨m',there,rfl⟩
  · exact ⟨m',there,rfl⟩

-- A count is zero, or it is the old one without what would have cleared it, and the poll.
theorem step_count (step : Step s event next) (there : next.pcbs y = some ⟨poll,some m'⟩) :
    m'.recvCheck = 0 ∨ ∃ before m, s.pcbs y = some ⟨before,some m⟩ ∧ ¬ event.Touches y ∧
      (m'.recvCheck = m.recvCheck ∨ event.polls y = true ∧ m'.recvCheck = m.recvCheck + 1) := by
  obtain ⟨allowed,rfl⟩ := step
  cases event with
  | server e => exact .inr ⟨poll,m',there,not_false,.inl rfl⟩
  | delete e linkCnt =>
    have same : (s.espconnTcpDelete e linkCnt).pcbs = s.pcbs := by
      unfold espconnTcpDelete
      split <;> rfl
    exact .inr ⟨poll,m',same ▸ there,not_false,.inl rfl⟩
  | regist e interval typeFlag pnode =>
    obtain ⟨m,there',count⟩ := regist_arg there
    exact .inr ⟨poll,m,there',not_false,.inl count⟩
  | accept e x =>
    rcases put_arg _ there with ⟨_,same⟩ | ⟨other,there'⟩
    · cases same
      exact .inl rfl
    · exact .inr ⟨poll,m',there',Ne.symm other,.inl rfl⟩
  | poll x established err =>
    rcases poll_arg there with zero | ⟨before,m,there',same | ⟨rfl,rfl,more⟩⟩
    · exact .inl zero
    · exact .inr ⟨before,m,there',not_false,.inl same⟩
    · exact .inr ⟨before,m,there',not_false,.inr ⟨by simp [Event.polls],more⟩⟩
  | recv x callback data ok err =>
    have closed : ∀ {t : State} {before}, (if ok = true ∧ data = false then t.espconnServerClose x false err else t).pcbs y =
        some ⟨before,some m'⟩ → ∃ before, t.pcbs y = some ⟨before,some m'⟩ := by
      intro t before there
      split at there
      · exact close_arg there
      · exact ⟨before,there⟩
    obtain ⟨before,there'⟩ := closed there
    split at there'
    · rcases reset_arg there' with ⟨_,zero⟩ | ⟨other,there''⟩
      · exact .inl zero
      · exact .inr ⟨before,m',there'',fun touches => other touches.1.symm,.inl rfl⟩
    · rename_i quiet
      exact .inr ⟨before,m',there',fun touches => quiet touches.2,.inl rfl⟩
  | tcpRecv x readbuf data ok err =>
    have opened : (s.espconnTcpRecv x readbuf data ok err).pcbs y = some ⟨poll,some m'⟩ := there
    unfold espconnTcpRecv at opened
    by_cases noted : readbuf = true ∧ ok = true
    · rw [if_pos noted] at opened
      have before : ∃ before, (s.reset x).pcbs y = some ⟨before,some m'⟩ := by
        split at opened
        · exact ⟨poll,opened⟩
        · exact close_arg opened
      obtain ⟨before,there'⟩ := before
      rcases reset_arg there' with ⟨_,zero⟩ | ⟨other,there''⟩
      · exact .inl zero
      · exact .inr ⟨before,m',there'',fun touches => other touches.1.symm,.inl rfl⟩
    · rw [if_neg noted] at opened
      exact .inr ⟨poll,m',opened,fun touches => noted touches.2,.inl rfl⟩
  | sent x =>
    rcases reset_arg there with ⟨_,zero⟩ | ⟨other,there'⟩
    · exact .inl zero
    · exact .inr ⟨poll,m',there',Ne.symm other,.inl rfl⟩
  | disconnect x abort err =>
    obtain ⟨before,there'⟩ := close_arg there
    exact .inr ⟨before,m',there',not_false,.inl rfl⟩
  | forget x =>
    by_cases here : y = x
    · subst y
      simp [perform] at there
    · exact .inr ⟨poll,m',by simpa [perform,here] using there,not_false,.inl rfl⟩
  | freed x =>
    by_cases here : y = x
    · subst y
      simp [perform] at there
    · exact .inr ⟨poll,m',by simpa [perform,here] using there,not_false,.inl rfl⟩

def Quiet (past : List Event) (x : Ptr) (count : Nat) : Prop :=
  ∃ before during, past = before ++ during ∧ (∀ event ∈ during, ¬ event.Touches x) ∧ count ≤ polls x during

theorem runs_quiet {past : List Event} (path : Runs Step start past s) (there : s.pcbs x = some ⟨poll,some m⟩) :
    Quiet past x m.recvCheck.toNat := by
  refine path.records (I := fun past s => ∀ x poll m, s.pcbs x = some ⟨poll,some m⟩ → Quiet past x m.recvCheck.toNat) ?_ ?_ x poll m there
  · intro x poll m there
    cases there
  · intro past s event next _ quiet step x poll m' there
    rcases step_count step there with zero | ⟨before,m,there',untouched,counted⟩
    · exact ⟨past ++ [event],[],by simp,by simp,by simp [zero,polls]⟩
    · obtain ⟨earlier,during,rfl,calm,enough⟩ := quiet x before m there'
      refine ⟨earlier,during ++ [event],by simp,?_,?_⟩
      · intro other member
        rcases List.mem_append.mp member with old | new
        · exact calm other old
        · cases List.mem_singleton.mp new
          exact untouched
      · have more : polls x (during ++ [event]) = polls x during + if event.polls x = true then 1 else 0 := by
          simp [polls,List.countP_append,List.countP_singleton]
        rcases counted with same | ⟨poll,one⟩
        · rw [same,more]
          omega
        · have bound : (m.recvCheck + 1).toNat ≤ m.recvCheck.toNat + 1 := by
            rw [UInt32.toNat_add]
            exact Nat.mod_le _ _
          rw [one,more,if_pos poll]
          omega

structure Waits (s : State) (x : Ptr) (m : Accepted) (L : UInt32) : Prop where
  there : s.pcbs x = some ⟨true,some m⟩
  limit : s.limit m = some L

def Shut (s : State) (x : Ptr) : Prop := ∃ m, s.pcbs x = some ⟨false,some m⟩

theorem limit_list (same : next.pserverList = s.pserverList) : next.limit m = s.limit m := by simp [limit,same]

theorem limit_writeFirst {e : Ptr} {interval : UInt32} (servers : List Server) (other : m.preverse ≠ e) :
    ((writeFirst (fun server => server.pespconn == e) (fun server => {server with timeout := interval}) servers).find? fun server =>
      server.pespconn == m.preverse) = servers.find? fun server => server.pespconn == m.preverse := by
  induction servers with
  | nil => rfl
  | cons server rest ih =>
    unfold writeFirst
    by_cases here : server.pespconn = e
    · have apart : ¬ e = m.preverse := Ne.symm other
      simp [here,apart]
    · simp [here,List.find?_cons,ih]

theorem limit_eraseP {e : Ptr} (servers : List Server) (other : m.preverse ≠ e) :
    ((servers.eraseP fun server => server.pespconn == e).find? fun server => server.pespconn == m.preverse) =
      servers.find? fun server => server.pespconn == m.preverse := by
  induction servers with
  | nil => rfl
  | cons server rest ih =>
    by_cases here : server.pespconn = e
    · have apart : ¬ e = m.preverse := Ne.symm other
      simp [here,apart]
    · simp [here,List.find?_cons,ih]

theorem limit_append {e : Ptr} (found : s.limit m = some L) : (s.espconnTcpServer e).limit m = some L := by
  unfold limit at found ⊢
  by_cases own : m.timeout ≠ 0
  · rw [if_pos own] at found ⊢
    exact found
  · rw [if_neg own] at found ⊢
    obtain ⟨server,listed,time⟩ := Option.map_eq_some_iff.mp found
    simp [espconnTcpServer,List.find?_append,listed,time]

structure Left (s next : State) (x : Ptr) (m : Accepted) : Prop where
  pcb : next.pcbs x = s.pcbs x
  limit : ∀ L, s.limit m = some L → next.limit m = some L
  closed : next.closed.count x = s.closed.count x

theorem Left.refl (s : State) (x : Ptr) (m : Accepted) : Left s s x m := ⟨rfl,fun _ found => found,rfl⟩

theorem Left.trans {middle : State} (one : Left s middle x m) (two : Left middle next x m) : Left s next x m :=
  ⟨two.pcb.trans one.pcb,fun L found => two.limit L (one.limit L found),two.closed.trans one.closed⟩

theorem left_put (other : x ≠ y) (pcb : Pcb) : Left s (s.put y pcb) x m :=
  ⟨put_other pcb other,fun _ found => found,rfl⟩

theorem left_reset (other : x ≠ y) : Left s (s.reset y) x m :=
  ⟨reset_other other,fun _ found => (limit_list reset_list).trans found,by simp⟩

theorem left_close (other : x ≠ y) : Left s (s.espconnServerClose y abort err) x m :=
  ⟨close_other other,fun _ found => (limit_list close_list).trans found,close_count other⟩

theorem left_poll (other : x ≠ y) (established : Bool) : Left s (s.espconnServerPoll y established err) x m := by
  cases found : s.pcbs y with
  | none =>
    simp only [espconnServerPoll,found]
    exact .refl s x m
  | some pcb =>
    obtain ⟨before,arg⟩ := pcb
    cases arg with
    | none =>
      simp only [espconnServerPoll,found]
      exact ⟨put_other _ other,fun _ found => found,rfl⟩
    | some m' =>
      cases established with
      | true =>
        rw [poll_established found]
        unfold idleCheck
        split
        · exact left_put other _
        · split_ifs
          · exact left_put other _
          · exact (left_put other _).trans (left_close other)
          · exact left_put other _
      | false =>
        simp only [espconnServerPoll,found,Bool.false_eq_true,if_false]
        exact left_close other

theorem left_regist {e : Ptr} {interval : UInt32} {typeFlag : UInt8} {pnode : Option Ptr}
    (steady : if typeFlag = 1 then pnode ≠ some x else e ≠ m.preverse) :
    Left s (s.espconnRegistTime e interval typeFlag pnode) x m := by
  unfold espconnRegistTime
  split_ifs with refused one
  · exact .refl s x m
  · rw [if_pos one] at steady
    cases pnode with
    | none => exact .refl s x m
    | some y =>
      have other : x ≠ y := fun here => steady (by rw [here])
      dsimp only
      split
      · exact left_put other _
      · exact .refl s x m
  · rw [if_neg one] at steady
    refine ⟨rfl,fun _ found => ?_,rfl⟩
    unfold limit at found ⊢
    rw [limit_writeFirst _ (Ne.symm steady)]
    exact found

theorem left_recv {callback data ok : Bool} (steady : (Event.recv y callback data ok err).Steady x m.preverse) :
    Left s (s.espconnServerRecv y callback data ok err) x m := by
  unfold espconnServerRecv
  by_cases here : y = x
  · rcases steady here with rfl | ⟨rfl,rfl⟩
    · simp [Left.refl]
    · simp [Left.refl]
  · have other : x ≠ y := Ne.symm here
    split
    · split
      · exact (left_reset other).trans (left_close other)
      · exact left_reset other
    · split
      · exact left_close other
      · exact .refl s x m

theorem left_tcpRecv {readbuf data ok : Bool} (steady : (Event.tcpRecv y readbuf data ok err).Steady x m.preverse) :
    Left s (s.espconnTcpRecv y readbuf data ok err) x m := by
  unfold espconnTcpRecv
  by_cases here : y = x
  · rcases steady here with rfl | rfl
    · simp [Left.refl]
    · simp [Left.refl]
  · have other : x ≠ y := Ne.symm here
    split_ifs
    · exact left_reset other
    · exact (left_reset other).trans (left_close other)
    · exact .refl s x m

theorem step_left (step : Step s event next) (steady : event.Steady x m.preverse)
    (unpolled : ∀ established err, event ≠ .poll x established err) (used : s.pcbs x ≠ none) : Left s next x m := by
  obtain ⟨allowed,rfl⟩ := step
  cases event with
  | server e => exact ⟨rfl,fun _ found => limit_append found,rfl⟩
  | delete e linkCnt =>
    have opened : s.perform (.delete e linkCnt) = s.espconnTcpDelete e linkCnt := rfl
    rw [opened,espconnTcpDelete]
    split
    · exact .refl s x m
    · refine ⟨rfl,fun _ found => ?_,rfl⟩
      unfold limit at found ⊢
      rw [limit_eraseP _ (Ne.symm steady)]
      exact found
  | regist e interval typeFlag pnode => exact left_regist steady
  | accept e y =>
    have other : x ≠ y := by
      rintro rfl
      exact used allowed
    exact left_put other _
  | poll y established err =>
    have other : x ≠ y := by
      rintro rfl
      exact unpolled established err rfl
    exact left_poll other established
  | recv y callback data ok err => exact left_recv steady
  | tcpRecv y readbuf data ok err => exact left_tcpRecv steady
  | sent y => exact left_reset (Ne.symm steady)
  | disconnect y abort err => exact left_close (Ne.symm steady)
  | forget y => exact ⟨Function.update_of_ne (Ne.symm steady) _ _,fun _ found => found,rfl⟩
  | freed y => exact ⟨Function.update_of_ne (Ne.symm steady) _ _,fun _ found => found,rfl⟩

def need (m : Accepted) (L : UInt32) : Nat := 1 + (L.toNat - (m.recvCheck + 1).toNat)

inductive Timed (s : State) (x : Ptr) (m : Accepted) (L : UInt32) : Nat → State → Prop where
  | none {t : State} (waits : Waits t x m L) (closed : t.closed.count x = s.closed.count x) : Timed s x m L 0 t
  | some {t : State} {count : Nat} {recvCheck : UInt32} (few : count + 1 < need m L) (waits : Waits t x {m with recvCheck} L)
      (counted : recvCheck.toNat = (m.recvCheck + 1).toNat + count) (closed : t.closed.count x = s.closed.count x) :
      Timed s x m L (count + 1) t
  | shut {t : State} (shut : Shut t x) (closed : t.closed.count x = s.closed.count x + 1) : Timed s x m L (need m L) t

theorem checked_close (m : Accepted) (recvCheck : UInt32) :
    Shut ((s.checked x m recvCheck).espconnServerClose x false errOk) x ∧
      ((s.checked x m recvCheck).espconnServerClose x false errOk).closed.count x = s.closed.count x + 1 := by
  unfold espconnServerClose
  rw [if_pos (.inr rfl)]
  refine ⟨⟨{m with recvCheck},?_⟩,?_⟩
  · simp [checked]
  · simp [checked]

theorem checked_waits (m : Accepted) (recvCheck : UInt32) (limit : s.limit m = some L) :
    Waits (s.checked x m recvCheck) x {m with recvCheck} L := ⟨put_self _,limit⟩

theorem timed_poll {t : State} {count : Nat} (timed : Timed s x m L count t) (positive : L ≠ 0)
    (allowed : t.Allowed (.poll x true errOk)) : Timed s x m L (count + 1) (t.espconnServerPoll x true errOk) := by
  cases timed with
  | none waits closed =>
    rw [poll_established waits.there]
    unfold idleCheck
    rw [waits.limit]
    dsimp only
    rw [if_neg positive]
    split_ifs with due
    · have last : 0 + 1 = need m L := by
        have due' : L.toNat ≤ (m.recvCheck + 1).toNat := due
        unfold need
        omega
      obtain ⟨shut,one⟩ := checked_close (s := t) (x := x) m 0
      rw [last]
      exact .shut shut (by rw [one,closed])
    · have late : (m.recvCheck + 1).toNat < L.toNat := Nat.lt_of_not_le due
      exact .some (by unfold need; omega) (checked_waits m _ waits.limit) rfl closed
  | @some _ count recvCheck few waits counted closed =>
    rw [poll_established waits.there]
    have room : recvCheck.toNat < L.toNat := by
      unfold need at few
      omega
    have next : (recvCheck + 1).toNat = recvCheck.toNat + 1 := by
      have bound := L.toNat_lt
      rw [UInt32.toNat_add]
      exact Nat.mod_eq_of_lt (by simp only [UInt32.toNat_one]; omega)
    unfold idleCheck
    rw [waits.limit]
    dsimp only
    rw [if_neg positive]
    split_ifs with due
    · have due' : L.toNat ≤ (recvCheck + 1).toNat := due
      have last : count + 1 + 1 = need m L := by
        unfold need at few ⊢
        omega
      obtain ⟨shut,one⟩ := checked_close (s := t) (x := x) {m with recvCheck} 0
      rw [last]
      exact .shut shut (by rw [one,closed])
    · have late : (recvCheck + 1).toNat < L.toNat := Nat.lt_of_not_le due
      refine .some ?_ (checked_waits {m with recvCheck} _ waits.limit) (by omega) closed
      unfold need
      omega
  | shut shut _ =>
    obtain ⟨m',there⟩ := shut
    obtain ⟨arg,polled⟩ := allowed
    cases there.symm.trans polled

theorem timed_left {t u : State} {count : Nat} (timed : Timed s x m L count t) (left : Left t u x m) : Timed s x m L count u := by
  cases timed with
  | none waits closed => exact .none ⟨left.pcb.trans waits.there,left.limit L waits.limit⟩ (left.closed.trans closed)
  | some few waits counted closed =>
    exact .some few ⟨left.pcb.trans waits.there,left.limit L waits.limit⟩ counted (left.closed.trans closed)
  | shut shut closed =>
    obtain ⟨m',there⟩ := shut
    exact .shut ⟨m',left.pcb.trans there⟩ (left.closed.trans closed)

theorem timed_used {t : State} {count : Nat} (timed : Timed s x m L count t) : t.pcbs x ≠ Option.none := by
  cases timed with
  | none waits => simp [waits.there]
  | some _ waits => simp [waits.there]
  | shut shut =>
    obtain ⟨m',there⟩ := shut
    simp [there]

theorem steady_cases (step : Step s event next) (steady : event.Steady x m.preverse) (used : s.pcbs x ≠ none) :
    event = .poll x true errOk ∨ (event.polls x = false ∧ Left s next x m) := by
  by_cases polled : ∃ established err, event = .poll x established err
  · obtain ⟨established,err,rfl⟩ := polled
    obtain ⟨rfl,rfl⟩ := steady rfl
    exact .inl rfl
  · have unpolled : ∀ established err, event ≠ .poll x established err := fun established err same => polled ⟨established,err,same⟩
    refine .inr ⟨?_,step_left step steady unpolled used⟩
    cases event with
    | poll y established err =>
      have other : y ≠ x := by
        rintro rfl
        exact unpolled established err rfl
      simp [Event.polls,other]
    | _ => rfl

theorem polls_append (past : List Event) (event : Event) :
    polls x (past ++ [event]) = polls x past + if event.polls x = true then 1 else 0 := by
  simp [polls,List.countP_append,List.countP_singleton]

theorem timed_run {later : List Event} {t : State} (waits : Waits s x m L) (positive : L ≠ 0) (path : Runs Step s later t)
    (steady : ∀ event ∈ later, event.Steady x m.preverse) : Timed s x m L (polls x later) t := by
  refine path.records (I := fun later t => (∀ event ∈ later, event.Steady x m.preverse) → Timed s x m L (polls x later) t) ?_ ?_ steady
  · intro _
    exact .none waits rfl
  · intro past t event u _ ih step calm
    have timed := ih fun other member => calm other (List.mem_append_left _ member)
    rw [polls_append]
    rcases steady_cases step (calm event (by simp)) (timed_used timed) with rfl | ⟨uncounted,left⟩
    · obtain ⟨allowed,rfl⟩ := step
      rw [if_pos (by simp [Event.polls])]
      exact timed_poll timed positive allowed
    · rw [uncounted]
      exact timed_left timed left

theorem forever_run {later : List Event} {t : State} (waits : Waits s x m 0) (path : Runs Step s later t)
    (steady : ∀ event ∈ later, event.Steady x m.preverse) :
    (∃ recvCheck, Waits t x {m with recvCheck} 0) ∧ t.closed.count x = s.closed.count x := by
  refine path.records (I := fun later t => (∀ event ∈ later, event.Steady x m.preverse) →
    (∃ recvCheck, Waits t x {m with recvCheck} 0) ∧ t.closed.count x = s.closed.count x) ?_ ?_ steady
  · intro _
    exact ⟨⟨m.recvCheck,waits⟩,rfl⟩
  · intro past t event u _ ih step calm
    obtain ⟨⟨recvCheck,open_⟩,closed⟩ := ih fun other member => calm other (List.mem_append_left _ member)
    rcases steady_cases step (calm event (by simp)) (by simp [open_.there]) with rfl | ⟨_,left⟩
    · obtain ⟨_,rfl⟩ := step
      have checks : t.perform (.poll x true errOk) = t.checked x {m with recvCheck} 0 := by
        change t.espconnServerPoll x true errOk = _
        rw [poll_established open_.there]
        simp [idleCheck,open_.limit]
      rw [checks]
      exact ⟨⟨0,checked_waits {m with recvCheck} 0 open_.limit⟩,closed⟩
    · exact ⟨⟨recvCheck,left.pcb.trans open_.there,left.limit 0 open_.limit⟩,left.closed.trans closed⟩

theorem poll_due (there : s.pcbs x = some ⟨poll,some m⟩) (closes : (s.espconnServerPoll x true err).closed ≠ s.closed) :
    ∃ L, s.limit m = some L ∧ L ≠ 0 ∧ L ≤ m.recvCheck + 1 := by
  rw [poll_established there] at closes
  unfold idleCheck at closes
  split at closes
  · exact absurd rfl closes
  · rename_i L found
    split_ifs at closes with never due
    · exact absurd rfl closes
    · exact ⟨L,found,never,due⟩
    · exact absurd rfl closes

end State

end NonosLinkLayer.Idle
