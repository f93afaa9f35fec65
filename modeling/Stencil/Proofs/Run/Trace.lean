import Stencil.Proofs.Run.Observed

/-!
# The scopes that a run begins and ends

A run ends every scope that it begins, in whatever way it ends itself, and it never ends one that it
has not begun. This is read off the requests that the recording evaluator notes down.

Main statement: `Renderer.run_recording`, for every evaluator.
-/

namespace Stencil

namespace Request

variable {ν : Type}

/-- Number of scopes that the requests begin. -/
def pushes (requests : List (Request ν)) : Nat := requests.countP isPush

/-- Number of scopes that the requests end. -/
def pops (requests : List (Request ν)) : Nat := requests.countP isPop

theorem pushes_cons (request : Request ν) (requests : List (Request ν)) :
    pushes (request :: requests) = pushes requests + if request.isPush then 1 else 0 :=
  List.countP_cons

theorem pops_cons (request : Request ν) (requests : List (Request ν)) :
    pops (request :: requests) = pops requests + if request.isPop then 1 else 0 :=
  List.countP_cons

/-- As many scopes are ended as are begun, and at no time have more been ended than begun. -/
structure Balanced (requests : List (Request ν)) : Prop where
  closed : pops requests = pushes requests
  covered : ∀ front, front <+: requests → pops front ≤ pushes front

/-- Requests, given latest first, after which `k` of the scopes that they begin are open, and at no
time have they ended more than begun. -/
structure Leaves (k : Nat) (requests : List (Request ν)) : Prop where
  open_eq : pops requests + k = pushes requests
  covered : ∀ earlier, earlier <:+ requests → pops earlier ≤ pushes earlier

namespace Leaves

variable {k : Nat} {requests : List (Request ν)}

theorem nil : Leaves 0 ([] : List (Request ν)) where
  open_eq := rfl
  covered earlier h := by
    rw [List.suffix_nil.1 h]
    exact Nat.le_refl _

/-- One more request that leaves fewer scopes ended than begun. -/
theorem cons {j : Nat} {request : Request ν} (h : Leaves k requests)
    (hopen : pops (request :: requests) + j = pushes (request :: requests)) :
    Leaves j (request :: requests) where
  open_eq := hopen
  covered earlier hearlier := by
    -- All requests, or what there was before the last one.
    rcases List.suffix_cons_iff.1 hearlier with rfl | hearlier
    · omega
    · exact h.covered earlier hearlier

theorem push (h : Leaves k requests) : Leaves (k + 1) (.push :: requests) := by
  refine h.cons ?_
  rw [pops_cons, pushes_cons, ← h.open_eq]
  simp only [isPop, isPush, Bool.false_eq_true, ↓reduceIte]
  omega

theorem pop (h : Leaves (k + 1) requests) : Leaves k (.pop :: requests) := by
  refine h.cons ?_
  rw [pops_cons, pushes_cons, ← h.open_eq]
  simp only [isPop, isPush, Bool.false_eq_true, ↓reduceIte]
  omega

theorem other {request : Request ν} (h : Leaves k requests) (hpush : request.isPush = false)
    (hpop : request.isPop = false) : Leaves k (request :: requests) := by
  refine h.cons ?_
  rw [pops_cons, pushes_cons, hpush, hpop, if_neg Bool.false_ne_true, ← h.open_eq]
  rfl

/-- Requests that leave no scope open are balanced. -/
theorem balanced (h : Leaves 0 requests) : Balanced requests.reverse where
  closed := by simpa [pops, pushes] using h.open_eq
  covered front hfront := by
    have hearlier := h.covered front.reverse (by simpa using List.reverse_suffix.2 hfront)
    simpa [pops, pushes] using hearlier

end Leaves

end Request

/-- The requests themselves are notes that fit the number of open scopes. -/
theorem Request.tracks_leaves {ν : Type} :
    Request.Tracks (List.cons (α := Request ν)) Request.Leaves where
  push _ _ h := h.push
  pop _ _ h := h.pop
  other _ _ _ hpush hpop h := h.other hpush hpop

/-- Recording changes nothing about a run, and the scopes that are begun and ended in the record are
balanced, whether the run succeeds or fails. -/
theorem Renderer.run_recording {σ ν ε : Type} (limits : Limits) (ev : Evaluator σ ν ε)
    (library : Library) (procedure : Procedure) (margin : Text) (state : σ) (out : Buffer) :
    let ran := (ofLimits limits ev library).run procedure margin ⟨state, out⟩
    let recorded := (ofLimits limits ev.recording library).run procedure margin ⟨(state, []), out⟩
    recorded.1 = ran.1 ∧ recorded.2.state.1 = ran.2.state ∧
      recorded.2.out.contents = ran.2.out.contents ∧
      Request.Balanced recorded.2.state.2.reverse := by
  rw [← ev.observing_cons]
  obtain ⟨hresult, hstate, htexts, hleaves⟩ :=
    run_observing Request.tracks_leaves limits ev library procedure margin state .nil out
  exact ⟨hresult, hstate, htexts, hleaves.balanced⟩

end Stencil
