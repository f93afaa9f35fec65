import Stencil.Render.Run
import Stencil.Settings

/-!
# Rendering templates

The ways to render a template as a whole: with given limits and no indentation, or under an
indentation with the usual limits.
-/

namespace Stencil

namespace Renderer

variable {σ ν ε : Type}

/-- The renderer with the given limits. -/
def ofLimits (limits : Limits) (ev : Evaluator σ ν ε) (library : Library) : Renderer σ ν ε :=
  ⟨ev, library, limits.loopLimit, limits.maxCallDepth⟩

/-- Runs a procedure from a state and an empty buffer: its result, the state after it and the text
written. -/
def runFresh (r : Renderer σ ν ε) (procedure : Procedure) (margin : Text) (state : σ) :
    Except (RenderError ε) Unit × Session σ :=
  r.run procedure margin ⟨state, .empty⟩

end Renderer

namespace Procedure

variable {σ ν ε : Type}

/-- Runs a procedure with the usual limits and no indentation, writing to what is written
already. -/
def render (procedure : Procedure) (ev : Evaluator σ ν ε) (library : Library) (s : Session σ) :
    Outcome σ ε Unit :=
  (Renderer.ofLimits {} ev library).run procedure [] s

end Procedure

namespace Template

variable {σ ν ε : Type}

/-- The text of a run, unless it failed, and the state after it. -/
def output (outcome : Outcome σ ε Unit) : Except (RenderError ε) Text × σ :=
  (outcome.1.map fun _ => outcome.2.out.contents, outcome.2.state)

/-- The text of a template with the given limits. -/
def renderWith (limits : Limits) (template : Template) (ev : Evaluator σ ν ε) (library : Library)
    (state : σ) : Except (RenderError ε) Text × σ :=
  output ((Renderer.ofLimits limits ev library).runFresh template.plain [] state)

/-- The text of a template with the usual limits. -/
def render (template : Template) (ev : Evaluator σ ν ε) (library : Library) (state : σ) :
    Except (RenderError ε) Text × σ :=
  template.renderWith {} ev library state

/-- The text of a template as if called from a line indented by `margin`, with the usual limits. -/
def renderIndented (template : Template) (ev : Evaluator σ ν ε) (library : Library)
    (margin : Text) (state : σ) : Except (RenderError ε) Text × σ :=
  output ((Renderer.ofLimits {} ev library).runFresh template.indented margin state)

end Template

end Stencil
