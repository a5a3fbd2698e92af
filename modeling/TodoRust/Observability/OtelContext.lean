import Mathlib.Data.List.Basic
import TodoRust.Lib.Nesting

/-!
# The OTel context of a thread

`OtelContextLayer` makes the context of an entered span the current one, and keeps
the guard that restores the context before it on a stack of the thread. An exit pops
this stack, whatever the enter of its span has found.
-/

namespace TodoRust.Observability
open Lib

/-! ### Contexts -/

structure TraceState where
  entries : List (String × String)
  deriving DecidableEq

structure SpanContext where
  traceId : BitVec 128
  spanId : BitVec 64
  traceFlags : BitVec 8
  isRemote : Bool
  traceState : TraceState
  deriving DecidableEq

/-- `SpanContext::empty_context` -/
def SpanContext.empty : SpanContext := ⟨0, 0, 0, false, ⟨[]⟩⟩

/-- `TraceFlags::SAMPLED` -/
def sampled : BitVec 8 := 1

/-- `opentelemetry::Context`: the active span, and the values of type `E` beside it. -/
structure Context (E : Type) where
  activeSpan : Option SpanContext
  entries : E
  deriving DecidableEq

variable {E : Type}

/-- `span().span_context()` -/
def Context.spanContext (cx : Context E) : SpanContext := cx.activeSpan.getD .empty

def Context.withRemoteSpanContext (cx : Context E) (spanContext : SpanContext) : Context E :=
  { cx with activeSpan := some spanContext }

/-- `SpanBuilder`, as far as the layer reads it. -/
structure SpanBuilder where
  traceId : Option (BitVec 128)
  spanId : Option (BitVec 64)
  deriving DecidableEq

structure OtelData (E : Type) where
  builder : SpanBuilder
  parentCx : Context E
  deriving DecidableEq

/-- The context a span with this data activates. -/
def OtelData.context (otelData : OtelData E) : Context E :=
  let traceId := otelData.builder.traceId.getD otelData.parentCx.spanContext.traceId
  let spanId := otelData.builder.spanId.getD otelData.parentCx.spanContext.spanId
  otelData.parentCx.withRemoteSpanContext ⟨traceId, spanId, sampled, false, ⟨[]⟩⟩

/-! ### The layer -/

/-- What `on_enter` finds under the id of the span. -/
inductive Found (E : Type)
  | missing
  | noOtelData
  | otelData (data : OtelData E)
  deriving DecidableEq

/-- A guard restores the context that was current when it was made. -/
structure ContextGuard (E : Type) where
  previous : Context E
  deriving DecidableEq

/-- The current context and `GUARD_STACK` of a thread. -/
structure Thread (E : Type) where
  current : Context E
  guardStack : List (ContextGuard E)
  deriving DecidableEq

namespace Thread

def attach (cx : Context E) (t : Thread E) : ContextGuard E × Thread E :=
  (⟨t.current⟩, { t with current := cx })

/-- `Drop for ContextGuard` -/
def drop (guard : ContextGuard E) (t : Thread E) : Thread E := { t with current := guard.previous }

def push (guard : ContextGuard E) (t : Thread E) : Thread E :=
  { t with guardStack := guard :: t.guardStack }

end Thread

def onEnter (found : Found E) (t : Thread E) : Thread E :=
  match found with
  | .missing => t
  | .noOtelData =>
      let (guard, t) := t.attach t.current
      t.push guard
  | .otelData data =>
      let (guard, t) := t.attach data.context
      t.push guard

def onExit (t : Thread E) : Thread E :=
  match t.guardStack with
  | [] => t
  | guard :: rest => { t with guardStack := rest }.drop guard

/-! ### Nested spans -/

/-- One enter or exit on the thread, of the innermost span that is entered. -/
abbrev spanStep (E : Type) := @nestedStep Nat (Found E) (Thread E) _ onEnter onExit

/-- The context a span activates when it is entered. -/
def Found.activated : Found E → Option (Context E)
  | .otelData data => some data.context
  | .missing | .noOtelData => none

/-- The context of the innermost open span that activated one, or else the first one. -/
def activeContext (first : Context E) (frames : List (Frame Nat (Found E) (Thread E))) :
    Context E :=
  (frames.findSome? fun frame => frame.found.activated).getD first

/-- A history of enters and exits. -/
abbrev History (E : Type) :=
  List ((Thread E × List (Frame Nat (Found E) (Thread E))) × NestedEvent Nat (Found E))

/-- At every moment the current context is that of the innermost open span that activated
one; every exit takes off the stack what the enter of its span has put there; and when
no span is open, the thread is as it was at first. -/
structure Balanced (t₀ : Thread E) (h : History E)
    (s : Thread E × List (Frame Nat (Found E) (Thread E))) : Prop where
  current : ∀ k ≤ h.length,
    (stateAt h s k).1.current = activeContext t₀.current (stateAt h s k).2
  exits : ∀ t frame frames id, ((t, frame :: frames), NestedEvent.exit id) ∈ h →
    t.guardStack = (onEnter frame.found frame.before).guardStack ∧
      (onExit t).guardStack = frame.before.guardStack
  restored : ∀ k ≤ h.length, (stateAt h s k).2 = [] → (stateAt h s k).1 = t₀

/-- A span that is missing when it is entered finds no guard on the stack: there was none
at first, and all spans around it are missing as well. -/
def MissingAlone (t₀ : Thread E) (h : History E) : Prop :=
  ∀ t frame frames id, ((t, frame :: frames), NestedEvent.exit id) ∈ h →
    frame.found = .missing → t₀.guardStack = [] ∧ ∀ outer ∈ frames, outer.found = .missing

section Run
variable {t₀ t : Thread E} {frames : List (Frame Nat (Found E) (Thread E))}

theorem onExit_onEnter {found : Found E} (h : found = .missing → t.guardStack = []) :
    onExit (onEnter found t) = t := by
  cases found with
  | missing =>
      unfold onExit onEnter
      rw [h rfl]
  | noOtelData => rfl
  | otelData data => rfl

/-- An exit of a missing span leaves the stack alone only if there is nothing on it. -/
theorem guardStack_of_missing {found : Found E} (hmissing : found = .missing)
    (h : (onExit (onEnter found t)).guardStack = t.guardStack) : t.guardStack = [] := by
  subst hmissing
  unfold onExit onEnter at h
  cases hstack : t.guardStack with
  | nil => rfl
  | cons guard rest =>
      rw [hstack] at h
      exact absurd h (List.cons_ne_self guard rest).symm

theorem current_of_opened (h : Opened onEnter t₀ frames t) :
    t.current = activeContext t₀.current frames := by
  induction h with
  | nil => rfl
  | cons id found h ih =>
      cases found with
      | missing => exact ih
      | noOtelData => exact ih
      | otelData data => rfl

theorem guardStack_eq_nil (h : Opened onEnter t₀ frames t) :
    t.guardStack = [] ↔ t₀.guardStack = [] ∧ ∀ frame ∈ frames, frame.found = .missing := by
  induction h with
  | nil => simp
  | cons id found h ih =>
      cases found with
      | missing => simpa [onEnter] using ih
      | noOtelData => simp [onEnter, Thread.push]
      | otelData data => simp [onEnter, Thread.push]

theorem eq_of_opened_nil (h : Opened onEnter t₀ ([] : List (Frame Nat (Found E) (Thread E))) t) :
    t = t₀ := by
  cases h with
  | nil => rfl

variable {h : History E} {s : Thread E × List (Frame Nat (Found E) (Thread E))}

theorem undone_of_missingAlone (halone : MissingAlone t₀ h) : Undone onEnter onExit t₀ h := by
  intro t frame frames id hx hopened
  obtain ⟨hbefore, rfl⟩ := hopened.before
  refine onExit_onEnter fun hmissing => ?_
  exact (guardStack_eq_nil hbefore).mpr (halone _ frame frames id hx hmissing)

theorem undone_of_balanced (hbalanced : Balanced t₀ h s) : Undone onEnter onExit t₀ h := by
  intro t frame frames id hx hopened
  obtain ⟨_, rfl⟩ := hopened.before
  exact onExit_onEnter fun hmissing =>
    guardStack_of_missing hmissing (hbalanced.exits _ frame frames id hx).2

theorem balanced_of_undone (run : Run (spanStep E) (t₀, []) h s)
    (hundone : Undone onEnter onExit t₀ h) : Balanced t₀ h s where
  current k hk := current_of_opened (run.opened_at hundone hk)
  exits := by
    intro t frame frames id hx
    have hopened := run.opened_of_mem hundone hx
    have hexit := hundone t frame frames id hx hopened
    exact ⟨congrArg Thread.guardStack hopened.before.2, congrArg Thread.guardStack hexit⟩
  restored k hk hframes := by
    have hopened := run.opened_at hundone hk
    rw [hframes] at hopened
    exact eq_of_opened_nil hopened

theorem missingAlone_of_undone (run : Run (spanStep E) (t₀, []) h s)
    (hundone : Undone onEnter onExit t₀ h) (hbalanced : Balanced t₀ h s) : MissingAlone t₀ h := by
  intro t frame frames id hx hmissing
  obtain ⟨hbefore, rfl⟩ := (run.opened_of_mem hundone hx).before
  -- nothing was pushed, so there must be nothing to take off
  have hstack := guardStack_of_missing hmissing (hbalanced.exits _ frame frames id hx).2
  exact (guardStack_eq_nil hbefore).mp hstack

/-- The activation of contexts is balanced exactly when every span that is missing when it
is entered is entered with no guard on the stack. -/
theorem activation_balanced_iff (run : Run (spanStep E) (t₀, []) h s) :
    Balanced t₀ h s ↔ MissingAlone t₀ h := by
  constructor
  · intro hbalanced
    exact missingAlone_of_undone run (undone_of_balanced hbalanced) hbalanced
  · intro halone
    exact balanced_of_undone run (undone_of_missingAlone halone)

/-- The thread and the span of the concrete runs. -/
def idleThread : Thread Unit := ⟨⟨none, ()⟩, []⟩

def requestSpan : Found Unit := .otelData ⟨⟨some 1, some 2⟩, ⟨none, ()⟩⟩

/-- A missing span, and then a request span around a span without data. -/
theorem activation_balanced_request : ∃ h, Run.events h = [.enter 3 .missing, .exit 3,
      .enter 1 requestSpan, .enter 2 .noOtelData, .exit 2, .exit 1] ∧
    Balanced idleThread h (idleThread, []) := by
  have run := @Run.of_record _ _ (spanStep Unit) (idleThread, []) [.enter 3 .missing, .exit 3,
    .enter 1 requestSpan, .enter 2 .noOtelData, .exit 2, .exit 1] _ (idleThread, []) rfl
  refine ⟨_, rfl, (activation_balanced_iff run).mpr fun t frame frames id hx hmissing => ?_⟩
  simp only [List.mem_cons, Prod.mk.injEq, reduceCtorEq, and_false, false_or,
    NestedEvent.exit.injEq,
    List.not_mem_nil, or_false, List.cons.injEq] at hx
  rcases hx with ⟨⟨-, rfl, rfl⟩, -⟩ | ⟨⟨-, rfl, -⟩, -⟩ | ⟨⟨-, rfl, -⟩, -⟩
  · exact ⟨rfl, fun outer houter => by cases houter⟩
  · cases hmissing
  · cases hmissing

/-- A span that is missing inside a request span: its exit ends the context of the request. -/
theorem activation_unbalanced : ¬ ∀ (t₀ : Thread Unit) (h : History Unit)
    (s : Thread Unit × List (Frame Nat (Found Unit) (Thread Unit))),
    Run (spanStep Unit) (t₀, []) h s → s.2 = [] → Balanced t₀ h s := by
  intro hall
  have run := @Run.of_record _ _ (spanStep Unit) (idleThread, []) [.enter 1 requestSpan,
    .enter 2 .missing, .exit 2, .exit 1] _ (idleThread, []) rfl
  have hcurrent := (hall _ _ _ run rfl).current 3 (by decide)
  revert hcurrent
  decide

end Run

end TodoRust.Observability
