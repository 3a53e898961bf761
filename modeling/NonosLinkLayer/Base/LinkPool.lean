import Mathlib.Data.List.Nodup
import Mathlib.Data.List.Basic
import Mathlib.Logic.Function.Basic

namespace LinkPool
universe u
variable {α : Type u} {next next' prev prev' : α → α} {null a b c before : α} {cells first second : List α}

-- A fixed set of cells carries two lists through one `next` field: a doubly
-- linked list of cells in use and a singly linked list of spare cells. A cell
-- is named by a value of `α`; one value, `null`, names no cell.
structure Pool (α : Type u) where
  next : α → α
  prev : α → α
  head : α
  last : α
  spare : α

-- Following `next` from `a` meets exactly `cells`, in order, and arrives at `b`.
def Path (next : α → α) (null : α) : α → List α → α → Prop
  | a,[],b => a = b
  | a,cell :: rest,b => a = cell ∧ cell ≠ null ∧ Path next null (next cell) rest b

-- Every cell names the one met before it.
def Back (prev : α → α) : α → List α → Prop
  | _,[] => True
  | before,cell :: rest => prev cell = before ∧ Back prev cell rest

theorem Path.cells_exist (path : Path next null a cells b) : ∀ cell ∈ cells, cell ≠ null := by
  induction cells generalizing a with
  | nil => intro cell member; cases member
  | cons head rest ih =>
    obtain ⟨_,real,tail⟩ := path
    intro cell member
    rcases List.mem_cons.mp member with rfl | old
    · exact real
    · exact ih tail cell old

theorem path_append :
    Path next null a (first ++ second) b ↔ ∃ m, Path next null a first m ∧ Path next null m second b := by
  induction first generalizing a with
  | nil => simp [Path]
  | cons head rest ih =>
    simp only [List.cons_append,Path,ih]
    constructor
    · rintro ⟨start,real,m,one,two⟩
      exact ⟨m,⟨start,real,one⟩,two⟩
    · rintro ⟨m,⟨start,real,one⟩,two⟩
      exact ⟨start,real,m,one,two⟩

theorem Path.congr (path : Path next null a cells b) (same : ∀ cell ∈ cells, next' cell = next cell) :
    Path next' null a cells b := by
  induction cells generalizing a with
  | nil => exact path
  | cons head rest ih =>
    obtain ⟨start,real,tail⟩ := path
    refine ⟨start,real,?_⟩
    rw [same head (by simp)]
    exact ih tail (fun cell member => same cell (List.mem_cons_of_mem _ member))

theorem back_append :
    Back prev before (first ++ second) ↔
      Back prev before first ∧ Back prev (first.getLast?.getD before) second := by
  induction first generalizing before with
  | nil => simp [Back]
  | cons head rest ih =>
    simp only [List.cons_append,Back,ih,and_assoc]
    cases rest <;> simp [List.getLast?_cons]

theorem Back.congr (back : Back prev before cells) (same : ∀ cell ∈ cells, prev' cell = prev cell) :
    Back prev' before cells := by
  induction cells generalizing before with
  | nil => trivial
  | cons head rest ih =>
    exact ⟨(same head (by simp)).trans back.1,
      ih back.2 (fun cell member => same cell (List.mem_cons_of_mem _ member))⟩

-- The two lists of a pool, with the cells in use and the spare ones spelled out.
structure Shape (null : α) (pool : Pool α) (busy spare : List α) : Prop where
  forward : Path pool.next null pool.head busy null
  backward : Back pool.prev null busy
  last : pool.last = busy.getLast?.getD null
  spares : Path pool.next null pool.spare spare null
  apart : (busy ++ spare).Nodup

namespace Shape
variable {pool : Pool α} {busy spare ahead behind : List α} {cell x y : α}

theorem next_ahead (shape : Shape null pool (behind ++ cell :: ahead) spare) :
    pool.next cell = ahead.head?.getD null := by
  obtain ⟨_,_,_,_,tail⟩ := path_append.mp shape.forward
  cases ahead with
  | nil => exact tail
  | cons head rest => exact tail.1

theorem prev_behind (shape : Shape null pool (behind ++ cell :: ahead) spare) :
    pool.prev cell = behind.getLast?.getD null :=
  (back_append.mp shape.backward).2.1

theorem head_first (shape : Shape null pool busy spare) : pool.head = busy.head?.getD null := by
  cases busy with
  | nil => exact shape.forward
  | cons head rest => exact shape.forward.1

theorem spare_first (shape : Shape null pool busy spare) : pool.spare = spare.head?.getD null := by
  cases spare with
  | nil => exact shape.spares
  | cons head rest => exact shape.spares.1

theorem last_null (shape : Shape null pool busy spare) : pool.last = null ↔ busy = [] := by
  rw [shape.last]
  constructor
  · intro none
    by_contra some
    rw [List.getLast?_eq_some_getLast some] at none
    exact shape.forward.cells_exist _ (List.getLast_mem some) none
  · rintro rfl; rfl

theorem parted (shape : Shape null pool (behind ++ cell :: ahead) spare) :
    (cell :: (behind ++ ahead ++ spare)).Nodup := by
  have apart := shape.apart
  rw [List.append_assoc,List.cons_append] at apart
  rw [List.append_assoc]
  exact List.nodup_middle.mp apart

theorem inverse (shape : Shape null pool busy spare) (one : x ∈ busy) (two : y ∈ busy) :
    pool.next x = y ↔ pool.prev y = x := by
  have real := shape.forward.cells_exist
  constructor
  · intro link
    obtain ⟨behind,ahead,rfl⟩ := List.append_of_mem one
    have forth := shape.next_ahead
    cases ahead with
    | nil => exact absurd (link.symm.trans forth) (real y two)
    | cons head rest =>
      have same : y = head := link.symm.trans forth
      subst same
      have split : behind ++ x :: y :: rest = (behind ++ [x]) ++ y :: rest := by simp
      rw [split] at shape
      simpa using shape.prev_behind
  · intro link
    obtain ⟨behind,ahead,rfl⟩ := List.append_of_mem two
    have back := shape.prev_behind
    rcases List.eq_nil_or_concat behind with rfl | ⟨init,z,rfl⟩
    · exact absurd (link.symm.trans back) (real x one)
    · have same : x = z := by simpa using link.symm.trans back
      subst same
      have split : init.concat x ++ y :: ahead = init ++ x :: (y :: ahead) := by simp
      rw [split] at shape
      simpa using shape.next_ahead

end Shape

-- A bounded walk, the executable reading of `Path`.
variable [DecidableEq α]

def walk (next : α → α) (null : α) : Nat → α → List α
  | 0,_ => []
  | bound+1,a => if a = null then [] else a :: walk next null bound (next a)

theorem walk_path (path : Path next null a cells null) (bound : cells.length ≤ fuel) :
    walk next null fuel a = cells := by
  induction cells generalizing a fuel with
  | nil =>
    have start : a = null := path
    cases fuel <;> simp [walk,start]
  | cons head rest ih =>
    obtain ⟨rfl,real,tail⟩ := path
    cases fuel with
    | zero => simp at bound
    | succ fuel => simp [walk,real,ih tail (by simpa using bound)]

theorem Path.redirect (path : Path next null a (cells ++ [z]) b) (distinct : (cells ++ [z]).Nodup) (c : α) :
    Path (Function.update next z c) null a (cells ++ [z]) c := by
  obtain ⟨m,behind,start,real,_⟩ := path_append.mp path
  refine path_append.mpr ⟨m,behind.congr ?_,start,real,by simp [Path]⟩
  intro cell member
  refine Function.update_of_ne ?_ _ _
  rintro rfl
  exact (List.disjoint_of_nodup_append distinct) member (by simp)

theorem Path.untouched (path : Path next null a cells b) (foreign : z ∉ cells) (c : α) :
    Path (Function.update next z c) null a cells b :=
  path.congr fun cell member => Function.update_of_ne (by rintro rfl; exact foreign member) _ _

theorem Back.untouched (back : Back prev before cells) (foreign : z ∉ cells) (c : α) :
    Back (Function.update prev z c) before cells :=
  back.congr fun cell member => Function.update_of_ne (by rintro rfl; exact foreign member) _ _

namespace Pool

-- Take `cell` out of the list in use and put it in front of the spare cells.
def release (null : α) (pool : Pool α) (cell : α) : Pool α :=
  let p := {pool with head := if cell = pool.head then pool.next cell else pool.head}
  let p := {p with last := if cell = p.last then p.prev cell else p.last}
  let p := {p with prev := if p.next cell = null then p.prev else Function.update p.prev (p.next cell) (p.prev cell)}
  let p := {p with next := if p.prev cell = null then p.next else Function.update p.next (p.prev cell) (p.next cell)}
  let p := {p with prev := Function.update p.prev cell null}
  let p := {p with next := Function.update p.next cell p.spare}
  {p with spare := cell}

-- Put `cell`, the first spare one, in front of the list in use.
def acquire (null : α) (pool : Pool α) (cell : α) : Pool α :=
  let p := {pool with spare := pool.next cell}
  let p := {p with prev := Function.update p.prev cell null}
  let p := {p with next := Function.update p.next cell p.head}
  let p := {p with prev := if p.head = null then p.prev else Function.update p.prev p.head cell}
  let p := {p with head := cell}
  {p with last := if p.last = null then cell else p.last}

-- `release` with all reads done before the first write. A cell that is its own
-- successor would be written on the way, with the value it has.
theorem release_eq (null : α) (pool : Pool α) (cell : α) : pool.release null cell =
    { head := if cell = pool.head then pool.next cell else pool.head
      last := if cell = pool.last then pool.prev cell else pool.last
      prev := Function.update (if pool.next cell = null then pool.prev
        else Function.update pool.prev (pool.next cell) (pool.prev cell)) cell null
      next := Function.update (if pool.prev cell = null then pool.next
        else Function.update pool.next (pool.prev cell) (pool.next cell)) cell pool.spare
      spare := cell } := by
  have unmoved : (if pool.next cell = null then pool.prev
      else Function.update pool.prev (pool.next cell) (pool.prev cell)) cell = pool.prev cell := by
    split_ifs
    · rfl
    · by_cases loop : cell = pool.next cell
      · rw [←loop,Function.update_self]
      · exact Function.update_of_ne loop _ _
  unfold release
  simp only [unmoved]

end Pool

namespace Shape
variable {pool : Pool α} {busy spare ahead behind : List α} {cell : α}

theorem acquire (shape : Shape null pool busy (cell :: spare)) :
    Shape null (pool.acquire null cell) (cell :: busy) spare := by
  have headFirst := shape.head_first
  have empty := shape.last_null
  obtain ⟨forward,backward,last,⟨start,real,spares⟩,apart⟩ := shape
  have parts := List.nodup_middle.mp apart
  obtain ⟨foreign,_⟩ := List.nodup_cons.mp parts
  have notBusy : cell ∉ busy := fun member => foreign (List.mem_append_left _ member)
  have notSpare : cell ∉ spare := fun member => foreign (List.mem_append_right _ member)
  refine ⟨⟨rfl,real,?_⟩,?_,?_,spares.untouched notSpare _,parts⟩
  · simp only [Pool.acquire,Function.update_self]
    exact forward.untouched notBusy _
  · cases busy with
    | nil => simp [Pool.acquire,headFirst,Back]
    | cons head rest =>
      have headOnce : head ∉ rest := (List.nodup_cons.mp (List.nodup_append.mp apart).1).1
      have offRest : cell ∉ rest := fun member => notBusy (List.mem_cons_of_mem _ member)
      have other : cell ≠ head := fun same => notBusy (by simp [same])
      have atHead : pool.head = head := headFirst
      simp only [Pool.acquire,atHead,forward.2.1,if_false]
      refine ⟨?_,Function.update_self ..,(backward.2.untouched offRest _).untouched headOnce _⟩
      rw [Function.update_of_ne other,Function.update_self]
  · cases busy with
    | nil => simp [Pool.acquire,empty]
    | cons head rest => simpa [Pool.acquire,empty,List.getLast?_cons] using last

-- `release` at any place. Both sides of `cell` are read off its links; each of
-- the two chains is then followed on its own.
theorem release_forward (shape : Shape null pool (behind ++ cell :: ahead) spare) :
    Path (pool.release null cell).next null (pool.release null cell).head (behind ++ ahead) null := by
  have back := shape.prev_behind
  have headFirst := shape.head_first
  have parted := shape.parted
  obtain ⟨m,toCell,start,_,onward⟩ := path_append.mp shape.forward
  subst start
  rcases List.eq_nil_or_concat behind with rfl | ⟨init,z,rfl⟩
  · have first : pool.head = m := headFirst
    have nothing : pool.prev m = null := back
    have offAhead : m ∉ ahead := by grind
    simp only [Pool.release_eq,first,nothing,if_true]
    exact onward.untouched offAhead _
  · rw [List.concat_eq_append] at *
    have isZ : pool.prev m = z := by simpa using back
    have realZ : z ≠ null := shape.forward.cells_exist z (by simp)
    have notHead : m ≠ pool.head := by
      cases init <;> grind
    have offZ : z ∉ ahead := by grind
    have offAhead : m ∉ ahead := by grind
    have offBehind : m ∉ init ++ [z] := by grind
    have once : (init ++ [z]).Nodup := by grind
    simp only [Pool.release_eq,notHead,isZ,realZ,if_false]
    exact path_append.mpr ⟨pool.next m,(toCell.redirect once _).untouched offBehind _,
      (onward.untouched offZ _).untouched offAhead _⟩

theorem release_backward (shape : Shape null pool (behind ++ cell :: ahead) spare) :
    Back (pool.release null cell).prev null (behind ++ ahead) := by
  have forth := shape.next_ahead
  have back := shape.prev_behind
  have real := shape.forward.cells_exist
  have parted := shape.parted
  obtain ⟨toCell,_,onward⟩ := back_append.mp shape.backward
  have offBehind : cell ∉ behind := by grind
  cases ahead with
  | nil =>
    have nothing : pool.next cell = null := forth
    simp only [Pool.release_eq,nothing,if_true,List.append_nil]
    exact toCell.untouched offBehind _
  | cons y rest =>
    have isY : pool.next cell = y := forth
    have realY : y ≠ null := real y (by simp)
    have other : y ≠ cell := by grind
    have offY : y ∉ behind := by grind
    have offRest : cell ∉ rest := by grind
    have once : y ∉ rest := by grind
    simp only [Pool.release_eq,isY,realY,if_false]
    refine back_append.mpr ⟨(toCell.untouched offY _).untouched offBehind _,?_,
      (onward.2.untouched once _).untouched offRest _⟩
    rw [Function.update_of_ne other,Function.update_self,back]

theorem release_last (shape : Shape null pool (behind ++ cell :: ahead) spare) :
    (pool.release null cell).last = (behind ++ ahead).getLast?.getD null := by
  have back := shape.prev_behind
  have ending := shape.last
  have parted := shape.parted
  rcases List.eq_nil_or_concat ahead with rfl | ⟨init,z,rfl⟩
  · have isLast : cell = pool.last := by simpa using ending.symm
    simpa only [Pool.release_eq,←isLast,if_true,List.append_nil] using back
  · have regroup : behind ++ cell :: init.concat z = (behind ++ cell :: init) ++ [z] := by simp
    have isZ : pool.last = z := by
      rw [ending,regroup,List.getLast?_concat]
      rfl
    have notLast : cell ≠ z := by grind
    simp [Pool.release_eq,isZ,notLast]

theorem release (shape : Shape null pool (behind ++ cell :: ahead) spare) :
    Shape null (pool.release null cell) (behind ++ ahead) (cell :: spare) := by
  have parted := shape.parted
  have back := shape.prev_behind
  have real := shape.forward.cells_exist
  have offSpare : cell ∉ spare := by grind
  refine ⟨shape.release_forward,shape.release_backward,shape.release_last,
    ⟨rfl,real cell (by simp),?_⟩,List.nodup_middle.mpr parted⟩
  simp only [Pool.release_eq,Function.update_self]
  refine Path.untouched ?_ offSpare _
  split
  · exact shape.spares
  · rename_i some
    refine shape.spares.untouched ?_ _
    intro member
    rcases List.eq_nil_or_concat behind with rfl | ⟨init,z,rfl⟩
    · exact some back
    · have isZ : pool.prev cell = z := by simpa using back
      grind

end Shape
end LinkPool
