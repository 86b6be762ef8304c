/-
  Test/Hello.lean --- test/cuda/hello.cu.

  A thread adds an element of an array of `int` to an element of an array of `char`:
  it reads both, adds them as `int`, and writes the sum back as `char`.  The threads
  read and write in any order.
-/
import VecCore.Foundation.Interleaving
import VecCore.Foundation.CInt

set_option autoImplicit false

namespace VecCore.Test

open VecCore.Foundation

/-- `char`. -/
def char (signed : Bool) : IntTy := ⟨8, signed, by decide⟩

variable {signed : Bool}

/-! ## The kernel -/

/-- Where a thread is in `a[threadIdx.x] += b[threadIdx.x]`; the right operand is
evaluated first. -/
inductive HelloThread (signed : Bool) where
  | start
  | readB (y : IntTy.int.Value)
  | readA (x : (char signed).Value) (y : IntTy.int.Value)
  | done

/-- The threads and the arrays on the device. -/
structure HelloGrid (signed : Bool) where
  threads : Nat → HelloThread signed
  a : Nat → (char signed).Value
  b : Nat → IntTy.int.Value

/-- The next read or write of thread `i`.  A sum that is no `int` is undefined. -/
def HelloGrid.hello (i : Nat) (g : HelloGrid signed) : Option (HelloGrid signed) :=
  match g.threads i with
  | .start => some { g with threads := Function.update g.threads i (.readB (g.b i)) }
  | .readB y => some { g with threads := Function.update g.threads i (.readA (g.a i) y) }
  | .readA x y => (IntTy.int.arith .add x y).map fun sum => { g with
      threads := Function.update g.threads i .done
      a := Function.update g.a i ((char signed).convert sum) }
  | .done => none

/-- `hello<<<dimGrid, dimBlock>>>(ad, bd)`, one block of `n` threads, with what
`cudaMemcpy` has copied to the device. -/
def helloLaunch (n : Nat) (a : Nat → (char signed).Value) (b : Nat → IntTy.int.Value) :
    HelloGrid signed where
  threads i := if i < n then .start else .done
  a := a
  b := b

/-- All threads have returned. -/
def HelloGrid.Finished (g : HelloGrid signed) : Prop := ∀ i, g.threads i = .done

/-! ## A thread by itself -/

/-- A thread and its elements of the arrays. -/
abbrev HelloView (signed : Bool) := HelloThread signed × (char signed).Value × IntTy.int.Value

/-- The part of a grid that thread `i` works on. -/
def HelloGrid.view (g : HelloGrid signed) (i : Nat) : HelloView signed :=
  (g.threads i, g.a i, g.b i)

/-- The next read or write of a thread, on its elements. -/
def HelloThread.next : HelloView signed → Option (HelloView signed)
  | (.start, x, y) => some (.readB y, x, y)
  | (.readB y', x, y) => some (.readA x y', x, y)
  | (.readA x' y', _, y) => (IntTy.int.arith .add x' y').map fun sum =>
      (.done, (char signed).convert sum, y)
  | (.done, _, _) => none

theorem HelloGrid.view_eq_update {g g' : HelloGrid signed} {i : Nat} {v : HelloView signed}
    (hthreads : g'.threads = Function.update g.threads i v.1)
    (ha : g'.a = Function.update g.a i v.2.1) (hb : g'.b = Function.update g.b i v.2.2) :
    g'.view = Function.update g.view i v := by
  funext j
  rw [view, hthreads, ha, hb]
  by_cases hj : j = i
  · rw [hj, Function.update_self, Function.update_self, Function.update_self,
      Function.update_self]
  · rw [Function.update_of_ne hj, Function.update_of_ne hj, Function.update_of_ne hj,
      Function.update_of_ne hj, view]

theorem HelloGrid.separate :
    Separate (@HelloGrid.hello signed) HelloGrid.view HelloThread.next := by
  intro i g
  have ha := (Function.update_eq_self i g.a).symm
  have hb := (Function.update_eq_self i g.b).symm
  rw [HelloGrid.view, HelloGrid.hello]
  cases g.threads i with
  | start => exact congrArg some (view_eq_update rfl ha hb)
  | readB y => exact congrArg some (view_eq_update rfl ha hb)
  | readA x y =>
    rw [Option.map_map, HelloThread.next, Option.map_map]
    exact congrArg (fun f => Option.map f (IntTy.int.arith .add x y))
      (funext fun sum => view_eq_update rfl rfl hb)
  | done => rfl

/-- A thread makes three steps. -/
theorem next_ends {x : (char signed).Value} {y : IntTy.int.Value}
    (h : IntTy.int.Fits ((x : Int) + y)) :
    Ends HelloThread.next 3 (.start, x, y)
      (.done, (char signed).convert ((x : Int) + y), y) := by
  have hsum : IntTy.int.arith .add x y = some ((x : Int) + y) := IntTy.int.result_of_fits h
  refine ⟨?_, rfl⟩
  show Option.bind (Option.map _ (IntTy.int.arith .add x y)) some = _
  rw [hsum]
  rfl

/-! ## Any order -/

/-- If the sums are values of `int`, the `n` threads return in whatever order they read
and write, after three steps each, and the first `n` elements of `a` are the sums. -/
theorem hello_every_order (n : Nat) (a : Nat → (char signed).Value)
    (b : Nat → IntTy.int.Value) (h : ∀ i < n, IntTy.int.Fits ((a i : Int) + b i)) :
    EveryOrder HelloGrid.hello (helloLaunch n a b) (n * 3) fun g =>
      g.Finished ∧ g.b = b ∧ ∀ i, g.a i =
        if i < n then (char signed).convert ((a i : Int) + b i) else a i := by
  have hends : ∀ i, Ends HelloThread.next (if i < n then 3 else 0)
      ((helloLaunch n a b).view i)
      (.done, if i < n then (char signed).convert ((a i : Int) + b i) else a i, b i) := by
    intro i
    show Ends HelloThread.next _ (if i < n then .start else .done, a i, b i) _
    split
    · rename_i hi
      exact next_ends (h i hi)
    · exact ⟨rfl, rfl⟩
  have horder := HelloGrid.separate.everyOrder (n := 3) hends
    (fun i hi => if_neg (Nat.not_lt.mpr hi)) fun i => by split <;> omega
  refine horder.imp fun g _ hview => ⟨fun i => ?_, funext fun i => ?_, fun i => ?_⟩
  · exact congrArg Prod.fst (congrFun hview i)
  · exact congrArg (fun v => v.2.2) (congrFun hview i)
  · exact congrArg (fun v => v.2.1) (congrFun hview i)

/-! ## The message -/

/-- What `printf("%s", a)` prints of an array of `n` elements. -/
def printed (n : Nat) (a : Nat → (char signed).Value) : List Int :=
  ((List.range n).map fun i => (a i : Int)).takeWhile (· ≠ 0)

/-- The values of characters. -/
def codes (text : List Char) : List Int := text.map fun c => (c.toNat : Int)

/-- `a[N]`. -/
def helloA (i : Nat) : (char true).Value :=
  (char true).convert ((codes ['H', 'e', 'l', 'l', 'o', ' '])[i]?.getD 0)

/-- `b[N]`. -/
def helloB (i : Nat) : IntTy.int.Value :=
  IntTy.int.convert (([15, 10, 6, 0, -11, 1] : List Int)[i]?.getD 0)

/-- In every order, the message is completed to `Hello World!`. -/
theorem hello_every_order_world :
    printed 16 helloA = codes ['H', 'e', 'l', 'l', 'o', ' '] ∧
      EveryOrder HelloGrid.hello (helloLaunch 16 helloA helloB) 48 fun g =>
        printed 16 g.a = codes ['W', 'o', 'r', 'l', 'd', '!'] := by
  refine ⟨by decide, (hello_every_order 16 helloA helloB (by decide)).imp ?_⟩
  rintro g - ⟨-, -, ha⟩
  rw [funext ha]
  decide

end VecCore.Test
