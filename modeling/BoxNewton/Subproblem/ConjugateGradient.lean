import BoxNewton.Subproblem

/-!
# Truncated conjugate gradients

The iterates of conjugate gradients, started from zero, only grow in norm. The truncated method
follows them until the residual is small, until the next iterate would leave the ball, or until a
direction shows no positive curvature; in the last two cases it ends on the boundary, along the
current direction.

The norm of the next iterate is found from inner products, before the iterate is formed.
-/

set_option autoImplicit false

namespace BoxNewton.ConjugateGradient

variable {α : Type} [Scalar α] {n : Nat}

/-- The buffer for products, kept between systems of one dimension. -/
structure Workspace (α : Type) where
  dim : Nat
  product : Vec α dim

/-- The workspace before the first system. -/
def Workspace.initial : Workspace α := ⟨0, Vec.zeros 0⟩

/-- The buffer for a system of dimension `n`: the one that is there, if it fits, else zeros. -/
def Workspace.buffer (w : Workspace α) (n : Nat) : Vec α n :=
  if h : w.dim = n then w.product.cast h else Vec.zeros n

/-- The state between two iterations. -/
structure State (α : Type) (n : Nat) where
  /-- The iterate. -/
  x : Vec α n
  /-- The residual `b - A x`, by its recurrence. -/
  r : Vec α n
  /-- The next direction. -/
  p : Vec α n
  /-- The squared norm of the residual. -/
  gamma : α
  /-- The latest product. -/
  product : Vec α n

/-- What one call returns. -/
abbrev Outcome (α : Type) (n : Nat) : Type :=
  (SubproblemResult × Vec α n) × Workspace α

/-- Ends a call. -/
def finish (status : SubproblemStatus) (iterations : Nat) (x product : Vec α n) : Outcome α n :=
  ((⟨status, iterations⟩, x), ⟨n, product⟩)

/-- The squared norm of `x + a p`, from inner products. -/
def nextNormSq (x p : Vec α n) (a : α) : α :=
  x.normSq + (1 + 1) * a * x.dot p + a * a * p.normSq

/-- Iterates from the given state. `remaining` iterations are left of `limit`. -/
def iterate (radius tolerance : α) (limit : Nat) :
    (remaining : Nat) → State α n → OperatorDialogue α n (Outcome α n)
  | 0, s => do
    Dialogue.remark (.subproblemLimit limit)
    return finish .maxIterations limit s.x s.product
  | remaining + 1, s => do
    let iteration := limit - remaining
    let ap ← Product.request s.p s.product
    let curvature := s.p.dot ap
    if curvature ≤ 0 then
      let tau := stepToBoundary s.x s.p radius
      Dialogue.remark (.curvatureNotPositive curvature iteration tau)
      return finish .onBoundary iteration (s.x.addScaled tau s.p) ap
    else
      let a := s.gamma / curvature
      if radius * radius ≤ nextNormSq s.x s.p a then
        let tau := stepToBoundary s.x s.p radius
        Dialogue.remark (.boundaryCrossed iteration a tau)
        return finish .onBoundary iteration (s.x.addScaled tau s.p) ap
      else
        let x := s.x.addScaled a s.p
        let r := s.r.addScaled (-a) ap
        let gamma := r.normSq
        if Scalar.sqrt gamma ≤ tolerance then
          Dialogue.remark (.subproblemConverged iteration)
          return finish .converged iteration x ap
        else
          iterate radius tolerance limit remaining
            { x, r, p := Vec.conjugate r (gamma / s.gamma) s.p, gamma, product := ap }

/-- Solves `A x = b` within the ball. -/
def solve (w : Workspace α) (b : Vec α n) (radius tolerance : α) (limit : Nat) :
    OperatorDialogue α n (Outcome α n) :=
  let buffer := w.buffer n
  let norm := b.norm
  if Scalar.Agree norm 0 then pure (finish .converged 0 (Vec.zeros n) buffer)
  else
    iterate radius (tolerance * norm) limit limit
      { x := Vec.zeros n, r := b, p := b, gamma := b.normSq, product := buffer }

/-- Truncated conjugate gradients as a subsolver. -/
def subsolver : Subsolver α where
  name := "Steihaug-Toint CG"
  State := Workspace α
  initial := Workspace.initial
  solve w b radius tolerance limit _ := solve w b radius tolerance limit

end BoxNewton.ConjugateGradient
