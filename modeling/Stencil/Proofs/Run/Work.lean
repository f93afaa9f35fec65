import Stencil.Proofs.Run.Coupling
import Mathlib.Data.List.MinMax
import Mathlib.Tactic.Ring

/-!
# The work of procedures

How many requests and operations running a procedure can take at most. Running goes by the limits,
so this is told from the operations alone, level by level of calls (`Op.allWork`); what the
evaluator answers does not matter.

The bound in closed form knows the sizes only. With a base that covers a round of a loop, `n`
operations take no more work than the `n`-th power of the base, and each level of calls adds the
size of the largest procedure of the library to the exponent (`workBound`).
-/

namespace Stencil

/-- The work of a call with so many arguments, if what it calls takes `k`: each argument is
evaluated and bound, and a scope is begun and ended. -/
def callWork (k arguments : Nat) : Nat := 2 * arguments + 2 + k

/-- The work of a loop, whatever its kind, if its body takes so much. -/
def loopWork (loopLimit body : Nat) : Nat := 5 + loopLimit * (body + 5)

namespace Op

/-! ## Operation by operation -/

mutual

/-- The most work that an operation takes, if a called procedure takes no more than `k`. -/
def work (loopLimit k : Nat) : Op → Nat
  | .text _ _ => 0
  | .render _ _ => 1
  | .declare _ => 1
  | .call _ arguments _ => callWork k arguments.length
  | .branch chain => chainWork loopLimit k chain
  | .loop _ _ body => loopWork loopLimit (allWork loopLimit k body)
  | .jump _ => 0

/-- The most work that operations take, themselves counted. -/
def allWork (loopLimit k : Nat) : List Op → Nat
  | [] => 0
  | op :: ops => op.work loopLimit k + 1 + allWork loopLimit k ops

/-- The most work that the arms of a branch take. -/
def chainWork (loopLimit k : Nat) : Chain Text (List Op) → Nat
  | .done => 0
  | .otherwise body => allWork loopLimit k body + 2
  | .arm _ body rest => 2 + (allWork loopLimit k body + 2 + chainWork loopLimit k rest)

end

mutual

/-- Number of operations in an operation, each argument of a call and each arm of a branch counted
as one more. -/
def size : Op → Nat
  | .call _ arguments _ => arguments.length + 1
  | .branch chain => chainSize chain + 1
  | .loop _ _ body => allSize body + 1
  | _ => 1

def allSize : List Op → Nat
  | [] => 0
  | op :: ops => op.size + allSize ops

def chainSize : Chain Text (List Op) → Nat
  | .done => 0
  | .otherwise body => allSize body + 1
  | .arm _ body rest => allSize body + 1 + chainSize rest

end

end Op

/-- Number of operations of a procedure. -/
def Procedure.size (procedure : Procedure) : Nat := Op.allSize procedure.ops

namespace Library

/-- The procedure is one of a template of the library. -/
def Holds (library : Library) (procedure : Procedure) : Prop :=
  ∃ name template mode, library.get? name = some template ∧ procedure = template.procedure mode

/-- A call runs a procedure of the library. -/
theorem holds_pick {library : Library} {name : Text} {template : Template}
    (h : library.get? name = some template) (indent : CallIndent) (margin : Text) :
    library.Holds (indent.pick margin template).1 := by
  unfold CallIndent.pick
  split
  · exact ⟨name, template, .plain, h, rfl⟩
  · exact ⟨name, template, .indented, h, rfl⟩

/-- Size of the largest procedure of a library. -/
def largest (library : Library) : Nat :=
  (library.entries.map fun entry => max entry.2.plain.size entry.2.indented.size).foldr max 0

theorem size_le_largest {library : Library} {procedure : Procedure} (h : library.Holds procedure) :
    procedure.size ≤ library.largest := by
  obtain ⟨name, template, mode, htemplate, rfl⟩ := h
  have hsize : (template.procedure mode).size ≤ max template.plain.size template.indented.size := by
    cases mode with
    | plain => exact Nat.le_max_left _ _
    | indented => exact Nat.le_max_right _ _
  have hentry : (name, template) ∈ library.entries := by
    obtain ⟨front, back, hentries, -⟩ := List.lookup_eq_some_iff.1 htemplate
    rw [hentries]
    exact List.mem_append_right front List.mem_cons_self
  exact List.le_max_of_le' 0 (List.mem_map_of_mem hentry) hsize

end Library

/-! ## From the sizes alone -/

/-- What one operation more multiplies the work by. -/
def workBase (loopLimit : Nat) : Nat := 8 * (loopLimit + 1)

/-- The most work that a procedure of the given size takes where calls may nest so many levels
deeper, if no procedure that can be called is larger than `largest`. -/
def workBound (loopLimit largest size levels : Nat) : Nat :=
  workBase loopLimit ^ (size + largest * levels)

section Bounds

variable {loopLimit a b x y k : Nat}

/-- Work that is done one after the other takes the product. -/
theorem add_le_mul_of_work (hk : 1 ≤ k) (hx : x + k ≤ a * k) (hy : y + k ≤ b * k) :
    x + y + k ≤ a * b * k := by
  cases a with
  | zero => omega
  | succ a =>
    cases b with
    | zero => omega
    | succ b =>
      have hproduct : (a + 1) * (b + 1) * k = a * b * k + (a * k + b * k + k) := by ring
      rw [Nat.succ_mul] at hx hy
      omega

theorem eight_mul_le (loopLimit k : Nat) : 8 * k ≤ workBase loopLimit * k :=
  Nat.mul_le_mul_right k (Nat.le_mul_of_pos_right 8 loopLimit.succ_pos)

/-- The base has room for a few steps more. -/
theorem add_le_workBase_mul (loopLimit : Nat) (hk : 1 ≤ k) (hx : x + k ≤ a * k) :
    5 + x + k ≤ workBase loopLimit * a * k := by
  have hbase := eight_mul_le loopLimit k
  exact add_le_mul_of_work hk (by omega) hx

/-- An operation that stands by itself. -/
theorem single_le (loopLimit : Nat) (hk : 1 ≤ k) (hx : x ≤ 1) :
    x + 1 + k ≤ workBase loopLimit ^ 1 * k := by
  have hbase := eight_mul_le loopLimit k
  rw [Nat.pow_one]
  omega

theorem callWork_le (hk : 1 ≤ k) (arguments : Nat) :
    callWork k arguments + 1 + k ≤ workBase loopLimit ^ (arguments + 1) * k := by
  induction arguments with
  | zero =>
    have hbase := eight_mul_le loopLimit k
    rw [callWork, Nat.pow_one]
    omega
  | succ arguments ih =>
    rw [Nat.pow_succ']
    have hstep := add_le_workBase_mul loopLimit hk ih
    rw [callWork] at hstep ⊢
    omega

theorem loopWork_le (hk : 1 ≤ k) (hx : x + k ≤ a * k) :
    loopWork loopLimit x + 1 + k ≤ workBase loopLimit * a * k := by
  have hround : loopLimit * (x + 5) ≤ loopLimit * (6 * (a * k)) :=
    Nat.mul_le_mul_left _ (by omega)
  have hbase : workBase loopLimit * a * k =
      loopLimit * (6 * (a * k)) + (2 * (loopLimit * (a * k)) + 8 * (a * k)) := by
    rw [workBase]
    ring
  rw [loopWork]
  omega

end Bounds

namespace Op

variable {loopLimit k : Nat}

mutual

theorem work_le (hk : 1 ≤ k) : ∀ op : Op,
    op.work loopLimit k + 1 + k ≤ workBase loopLimit ^ op.size * k
  | .text _ _ => single_le loopLimit hk (Nat.zero_le 1)
  | .render _ _ => single_le loopLimit hk (Nat.le_refl 1)
  | .declare _ => single_le loopLimit hk (Nat.le_refl 1)
  | .call _ arguments _ => callWork_le hk arguments.length
  | .branch chain => by
    have hchain := add_le_workBase_mul loopLimit hk (chainWork_le hk chain)
    rw [work, size, Nat.pow_succ']
    omega
  | .loop _ _ body => by
    rw [work, size, Nat.pow_succ']
    exact loopWork_le hk (allWork_le hk body)
  | .jump _ => single_le loopLimit hk (Nat.zero_le 1)

theorem allWork_le (hk : 1 ≤ k) : ∀ ops : List Op,
    allWork loopLimit k ops + k ≤ workBase loopLimit ^ allSize ops * k
  | [] => by rw [allWork, allSize, Nat.pow_zero, Nat.zero_add, Nat.one_mul]
  | op :: ops => by
    rw [allWork, allSize, Nat.pow_add]
    exact add_le_mul_of_work hk (work_le hk op) (allWork_le hk ops)

theorem chainWork_le (hk : 1 ≤ k) : ∀ chain : Chain Text (List Op),
    chainWork loopLimit k chain + k ≤ workBase loopLimit ^ chainSize chain * k
  | .done => by rw [chainWork, chainSize, Nat.pow_zero, Nat.zero_add, Nat.one_mul]
  | .otherwise body => by
    have hbody := add_le_workBase_mul loopLimit hk (allWork_le hk body)
    rw [chainWork, chainSize, Nat.pow_succ']
    omega
  | .arm _ body rest => by
    have hbody := add_le_workBase_mul loopLimit hk (allWork_le hk body)
    have harm := add_le_mul_of_work hk hbody (chainWork_le hk rest)
    rw [chainWork, chainSize, Nat.pow_add, Nat.pow_succ']
    omega

end

end Op

section Levels

variable {loopLimit largest size : Nat}

theorem workBound_pos (loopLimit largest size levels : Nat) :
    1 ≤ workBound loopLimit largest size levels :=
  Nat.pow_pos (Nat.mul_pos (by decide) loopLimit.succ_pos)

/-- The bound for one level covers what the level below it may call. -/
theorem workBound_le_succ (h : size ≤ largest) (levels : Nat) :
    workBound loopLimit largest size levels ≤ workBound loopLimit largest 0 (levels + 1) := by
  refine Nat.pow_le_pow_right (Nat.mul_pos (by decide) loopLimit.succ_pos) ?_
  rw [Nat.mul_succ]
  omega

theorem Procedure.work_le (loopLimit largest levels : Nat) (procedure : Procedure) :
    Op.allWork loopLimit (workBound loopLimit largest 0 levels) procedure.ops ≤
      workBound loopLimit largest procedure.size levels := by
  have hpow : workBound loopLimit largest procedure.size levels =
      workBase loopLimit ^ procedure.size * workBound loopLimit largest 0 levels := by
    rw [workBound, workBound, Nat.pow_add, Nat.zero_add]
  rw [hpow]
  exact Nat.le_trans (Nat.le_add_right _ _)
    (Op.allWork_le (workBound_pos loopLimit largest 0 levels) procedure.ops)

end Levels

end Stencil
