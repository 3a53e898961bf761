import NonosLinkLayer.Connections.Idle
import NonosLinkLayer.Connections.Task
import NonosLinkLayer.Espconn.Receive

namespace NonosLinkLayer.Connections
open HeapList
open NonosLinkLayer.Espconn (Receiver Packet Memory Pbufs errOk)

-- One connection with all that the callbacks for data use of it: its receiving side, the
-- idle check and the espconns. The first two both have its recv_check.
structure Connection where
  receiver : Receiver
  idle : Idle.State
  net : Net

namespace Connection

def Shares (c : Connection) (x : Ptr) : Prop :=
  ∃ poll m, c.idle.pcbs x = some ⟨poll,some m⟩ ∧ m.recvCheck = c.receiver.recvCheck

def clear (c : Connection) (x : Ptr) : Connection :=
  {c with receiver := {c.receiver with recvCheck := 0},idle := c.idle.reset x}

def read (c : Connection) (x : Ptr) : Option Connection := do
  let net ← c.net.receive x .read
  some {c with net}

def close (c : Connection) (x : Ptr) (err : Int) : Option Connection := do
  let net ← c.net.espconnClose (c.net.arg x) x false err
  some {c with idle := c.idle.espconnServerClose x false err,net}

def arrived (c : Connection) (p : Packet) : Connection :=
  {c with receiver := {c.receiver with delivered := c.receiver.delivered + p.segments.flatten.length}}

-- The whole of espconn_server_recv up to the call of recv_callback. `zalloc` is whether
-- there is memory for the data that goes to it.
def espconnServerRecv (tcpWnd : UInt32) (memory : Memory) (x : Ptr) (zalloc : Bool) (p : Option Packet) (err closeErr : Int)
    (c : Connection) : Option Connection :=
  let c : Connection := {c with receiver := c.receiver.espconnLockRecv tcpWnd memory}
  match p with
  | none => if err = errOk then c.close x closeErr else some c
  | some p =>
    let c := c.arrived p
    let c : Connection := {c with receiver := if c.receiver.recvHoldFlag = 0 then c.receiver.tcpRecved p.totLen else c.receiver.held p}
    if c.receiver.recvCallback then
      if err = errOk then
        if zalloc ∧ p.totLen ≠ 0 then (c.clear x).read x else some (c.clear x)
      else some c
    else do
      let rb ← c.receiver.readbuf
      let (_,rb) ← Pbufs.espconnServerRecvLoop p.leave p.turns p.pbufs p.first rb
      some {c with receiver := {c.receiver with readbuf := some rb}}

def espconnTcpRecv (tcpWnd : UInt32) (memory : Memory) (x : Ptr) (p : Option Packet) (err closeErr : Int) (c : Connection) :
    Option Connection :=
  match c.receiver.withReadbuf tcpWnd memory with
  | none => some c
  | some rb =>
    let c : Connection := {c with receiver := {c.receiver with readbuf := some rb}}
    match p with
    | none => if err = errOk then (c.clear x).close x closeErr else some c
    | some p =>
      let c := c.arrived p
      if err = errOk then do
        let c := c.clear x
        let (_,rb) ← Pbufs.espconnTcpRecvLoop p.leave p.turns p.pbufs p.first rb
        read {c with receiver := {c.receiver with readbuf := some rb}} x
      else some c

def seen (x : Ptr) (told : Bool) (p : Option Packet) (err closeErr : Int) : List Event :=
  if err = errOk then
    match p with
    | none => [.closed x closeErr]
    | some _ => if told then [.receive x .read] else []
  else []

variable {c next : Connection} {x : Ptr} {tcpWnd : UInt32} {memory : Memory} {zalloc : Bool} {p : Option Packet} {err closeErr : Int}

theorem lock_check (tcpWnd : UInt32) (memory : Memory) (r : Receiver) :
    (r.espconnLockRecv tcpWnd memory).recvCheck = r.recvCheck ∧ (r.espconnLockRecv tcpWnd memory).recvCallback = r.recvCallback := by
  unfold Receiver.espconnLockRecv
  split
  · exact ⟨rfl,rfl⟩
  · split
    · exact ⟨rfl,rfl⟩
    · unfold Receiver.espconnRecvHold
      split <;> exact ⟨rfl,rfl⟩

theorem clear_shares (shares : c.Shares x) : (c.clear x).Shares x := by
  obtain ⟨poll,m,there,_⟩ := shares
  refine ⟨poll,{m with recvCheck := 0},?_,rfl⟩
  unfold clear Idle.State.reset
  rw [there]
  exact Idle.State.put_self _

theorem read_parts (run : c.read x = some next) :
    c.net.receive x .read = some next.net ∧ next.receiver = c.receiver ∧ next.idle = c.idle := by
  obtain ⟨net,read,run⟩ := Option.bind_eq_some_iff.mp run
  cases run
  exact ⟨read,rfl,rfl⟩

theorem read_shares (shares : c.Shares x) (run : c.read x = some next) : next.Shares x := by
  obtain ⟨_,receiver,idle⟩ := read_parts run
  unfold Shares
  rw [receiver,idle]
  exact shares

theorem close_parts (run : c.close x err = some next) :
    c.net.espconnClose (c.net.arg x) x false err = some next.net ∧ next.receiver = c.receiver ∧
      next.idle = c.idle.espconnServerClose x false err := by
  obtain ⟨net,closed,run⟩ := Option.bind_eq_some_iff.mp run
  cases run
  exact ⟨closed,rfl,rfl⟩

theorem close_shares (shares : c.Shares x) (run : c.close x err = some next) : next.Shares x := by
  obtain ⟨poll,m,there,same⟩ := shares
  obtain ⟨_,receiver,idle⟩ := close_parts run
  unfold Shares
  rw [receiver,idle]
  unfold Idle.State.espconnServerClose
  split
  · exact ⟨false,m,by simp [there],same⟩
  · exact ⟨poll,m,there,same⟩

-- The receiving side, the idle check and the espconns each show the part of
-- espconn_server_recv that is about them, and agree on recv_check.
theorem espconnServerRecv_views (run : c.espconnServerRecv tcpWnd memory x zalloc p err closeErr = some next) :
    c.receiver.espconnServerRecv tcpWnd memory p err = some next.receiver ∧
    next.idle = c.idle.espconnServerRecv x c.receiver.recvCallback p.isSome (decide (err = errOk)) closeErr ∧
    (∀ turns, (seen x (c.receiver.recvCallback && zalloc && p.any fun p => p.totLen != 0) p err closeErr).foldlM (Net.perform turns) c.net =
      some next.net) ∧
    (c.Shares x → next.Shares x) := by
  obtain ⟨check,callback⟩ := lock_check tcpWnd memory c.receiver
  unfold espconnServerRecv at run
  unfold Receiver.espconnServerRecv Receiver.recvCb Idle.State.espconnServerRecv seen
  generalize c.receiver.espconnLockRecv tcpWnd memory = r at run check callback ⊢
  have locked : c.Shares x → Shares {c with receiver := r} x := fun ⟨poll,m,there,same⟩ => ⟨poll,m,there,same.trans check.symm⟩
  cases p with
  | none =>
    dsimp only at run ⊢
    split at run
    · rename_i ok
      obtain ⟨net,receiver,idle⟩ := close_parts run
      refine ⟨by rw [receiver],by simpa [ok] using idle,fun turns => ?_,fun shares => close_shares (locked shares) run⟩
      simpa [ok,Net.perform] using net
    · rename_i bad
      cases run
      exact ⟨rfl,by simp [bad],fun turns => by simp [bad],locked⟩
  | some p =>
    unfold arrived at run
    dsimp only at run ⊢
    generalize credited : (if r.recvHoldFlag = 0 then
      {r with delivered := r.delivered + p.segments.flatten.length}.tcpRecved p.totLen
      else {r with delivered := r.delivered + p.segments.flatten.length}.held p) = d at run ⊢
    obtain ⟨check',callback'⟩ : d.recvCheck = r.recvCheck ∧ d.recvCallback = r.recvCallback := by
      rw [←credited]
      split <;> exact ⟨rfl,rfl⟩
    have shares' : c.Shares x → Shares {c with receiver := d} x :=
      fun shares => (locked shares).imp fun _ ⟨m,there,same⟩ => ⟨m,there,same.trans check'.symm⟩
    cases on : c.receiver.recvCallback with
    | true =>
      have told : d.recvCallback = true := (callback'.trans callback).trans on
      rw [told,if_pos rfl] at run
      split at run
      · rename_i ok
        split at run
        · rename_i whole
          obtain ⟨net,receiver,same⟩ := read_parts run
          have net : c.net.receive x .read = some next.net := net
          refine ⟨by simp [receiver,clear,told,ok,errOk],by simp [same,clear,ok],fun turns => ?_,
            fun shares => read_shares (clear_shares (shares' shares)) run⟩
          simpa [ok,whole,Net.perform] using net
        · rename_i short
          cases run
          refine ⟨by simp [clear,told,ok,errOk],by simp [clear,ok],fun turns => ?_,fun shares => clear_shares (shares' shares)⟩
          have untold : ¬ (zalloc = true ∧ p.totLen ≠ 0) := short
          simp [ok,clear,untold]
      · rename_i bad
        cases run
        have bad' : ¬ err = 0 := bad
        exact ⟨by simp [told,bad'],by simp [bad],fun turns => by simp [bad],shares'⟩
    | false =>
      have untold : d.recvCallback = false := (callback'.trans callback).trans on
      rw [untold,if_neg Bool.false_ne_true] at run
      obtain ⟨rb,buffer,run⟩ := Option.bind_eq_some_iff.mp run
      obtain ⟨⟨m,rb'⟩,loop,run⟩ := Option.bind_eq_some_iff.mp run
      cases run
      refine ⟨?_,by simp,fun turns => by simp,shares'⟩
      rw [untold,if_neg Bool.false_ne_true,buffer]
      change (Pbufs.storeLoop p.leave p.turns p.pbufs p.first rb).bind _ = _
      have loop : Pbufs.storeLoop p.leave p.turns p.pbufs p.first rb = some (m,rb') := loop
      rw [loop]
      rfl

theorem espconnTcpRecv_views (run : c.espconnTcpRecv tcpWnd memory x p err closeErr = some next) :
    c.receiver.espconnTcpRecv tcpWnd memory p err = some next.receiver ∧
    next.idle = c.idle.espconnTcpRecv x (c.receiver.withReadbuf tcpWnd memory).isSome p.isSome (decide (err = errOk)) closeErr ∧
    (∀ turns, (if (c.receiver.withReadbuf tcpWnd memory).isSome then seen x true p err closeErr else []).foldlM (Net.perform turns) c.net =
      some next.net) ∧
    (c.Shares x → next.Shares x) := by
  unfold espconnTcpRecv at run
  unfold Receiver.espconnTcpRecv Idle.State.espconnTcpRecv seen
  cases made : c.receiver.withReadbuf tcpWnd memory with
  | none =>
    rw [made] at run
    cases run
    exact ⟨rfl,by simp,fun turns => by simp,id⟩
  | some rb =>
    rw [made] at run
    have buffered : c.Shares x → Shares {c with receiver := {c.receiver with readbuf := some rb}} x := id
    cases p with
    | none =>
      dsimp only at run
      split at run
      · rename_i ok
        obtain ⟨net,receiver,idle⟩ := close_parts run
        have net : c.net.espconnClose (c.net.arg x) x false closeErr = some next.net := net
        refine ⟨by simp [receiver,clear,ok,errOk],by simp [idle,clear,ok],fun turns => ?_,
          fun shares => close_shares (clear_shares (buffered shares)) run⟩
        simpa [ok,Net.perform] using net
      · rename_i bad
        have bad' : ¬ err = 0 := bad
        cases run
        exact ⟨by simp [bad'],by simp [bad],fun turns => by simp [bad],id⟩
    | some p =>
      dsimp only at run
      split at run
      · rename_i ok
        have ok' : err = 0 := ok
        obtain ⟨⟨m,rb'⟩,loop,run⟩ := Option.bind_eq_some_iff.mp run
        have loop : Pbufs.storeLoop p.leave p.turns p.pbufs p.first rb = some (m,rb') := loop
        obtain ⟨net,receiver,idle⟩ := read_parts run
        have net : c.net.receive x .read = some next.net := net
        refine ⟨by simp [receiver,clear,arrived,ok',loop],by simp [idle,clear,arrived,ok],fun turns => ?_,
          fun shares => read_shares ?_ run⟩
        · simpa [ok,Net.perform] using net
        · exact clear_shares (buffered shares)
      · rename_i bad
        have bad' : ¬ err = 0 := bad
        cases run
        exact ⟨by simp [arrived,bad'],by simp [arrived,bad],fun turns => by simp [arrived,bad],id⟩

end Connection

end NonosLinkLayer.Connections
