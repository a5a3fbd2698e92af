import TodoRust.Pages.Decisions
import TodoRust.Router.HandlerPages

/-!
# The values in a page

Every text that was put in is the value of its expression: in the context of the page, or,
inside a loop, in that context with an item in front. What is known of the contexts of the
handlers is therefore known of the texts in their pages, and a browser reads these texts
in the attributes they were put in.
-/

namespace TodoRust.Pages
open Lib Html

/-! ### Where a value comes from -/

section Evaluated
variable {σ : Type} (I : Context → Prop) (helpers : Helpers σ)

/-- The text is the value of its expression, in one of these contexts. -/
def Slot.Evaluated (slot : Slot) : Prop :=
  ∀ e, slot.label = .emit e → ∃ context v, I context ∧ e.eval helpers context = .ok v ∧
    slot.value = displayed helpers v

/-- The contexts of a loop are such if the context of the loop is. -/
def ItemsKeep (loops : List (String × Expr)) : Prop :=
  ∀ loop ∈ loops, ∀ context, I context → ∀ v vs, loop.2.eval helpers context = .ok v →
    items v = .ok vs → ∀ item ∈ vs, I ((loop.1, item) :: context)

variable {I helpers}

theorem eachItem_hole {body : Value → σ → Except Failure (List (Cell Slot) × σ)} {P : Slot → Prop}
    {vs : List Value}
    (hbody : ∀ v ∈ vs, ∀ s cells s', body v s = .ok (cells, s') →
      ∀ slot, .hole slot ∈ cells → P slot)
    {s s' : σ} {cells : List (Cell Slot)} (h : eachItem body vs s = .ok (cells, s')) {slot : Slot}
    (hslot : .hole slot ∈ cells) : P slot := by
  induction vs generalizing s cells with
  | nil =>
      cases h
      cases hslot
  | cons v vs ih =>
      obtain ⟨first, hfirst, hlater⟩ := bind_ok h
      obtain ⟨rest, hrest, heq⟩ := map_ok hlater
      cases heq
      rcases List.mem_append.mp hslot with hslot | hslot
      · exact hbody v (List.mem_cons_self ..) s first.1 first.2 hfirst slot hslot
      · exact ih (fun v hv => hbody v (List.mem_cons_of_mem _ hv)) hrest hslot

theorem Template.cells_evaluated {t : Template} (hloops : ItemsKeep I helpers t.loops)
    {context : Context} (hI : I context) {s s' : σ} {cells : List (Cell Slot)}
    (h : t.cells helpers context s = .ok (cells, s')) {slot : Slot} (hslot : .hole slot ∈ cells) :
    slot.Evaluated I helpers := by
  induction t generalizing context s s' cells slot with
  | nothing =>
      cases h
      cases hslot
  | text l =>
      cases h
      obtain ⟨c, -, hc⟩ := List.mem_map.mp hslot
      cases hc
  | emit e =>
      obtain ⟨v, hv, heq⟩ := map_ok h
      cases heq
      cases List.mem_singleton.mp hslot
      rintro e' he'
      cases he'
      exact ⟨context, v, hI, hv, rfl⟩
  | datetime e style =>
      -- the texts of a date are no expressions
      obtain ⟨v, _, hdate⟩ := bind_ok h
      obtain ⟨⟨parts, s⟩, _, heq⟩ := map_ok hdate
      cases heq
      rintro e' he'
      simp only [timeCells, List.mem_append, List.mem_cons, List.mem_map, reduceCtorEq, and_false,
        exists_false, false_or, or_false, Cell.hole.injEq] at hslot
      rcases hslot with rfl | rfl | rfl
      all_goals cases he'
  | seq first rest ihFirst ihRest =>
      obtain ⟨before, hbefore, hlater⟩ := bind_ok h
      obtain ⟨after, hafter, heq⟩ := map_ok hlater
      cases heq
      rcases List.mem_append.mp hslot with hslot | hslot
      · exact ihFirst (fun l hl => hloops l (List.mem_append_left _ hl)) hI hbefore hslot
      · exact ihRest (fun l hl => hloops l (List.mem_append_right _ hl)) hI hafter hslot
  | ifElse condition yes no ihYes ihNo =>
      obtain ⟨v, _, hbranch⟩ := bind_ok h
      split at hbranch
      · exact ihYes (fun l hl => hloops l (List.mem_append_left _ hl)) hI hbranch hslot
      · exact ihNo (fun l hl => hloops l (List.mem_append_right _ hl)) hI hbranch hslot
  | forIn name e body ih =>
      obtain ⟨v, hv, hloop⟩ := bind_ok h
      obtain ⟨vs, hvs, heach⟩ := bind_ok hloop
      have hitem := hloops (name, e) (List.mem_cons_self ..) context hI v vs hv hvs
      refine eachItem_hole (P := Slot.Evaluated I helpers) ?_ heach hslot
      intro item hmem s cells s' hcells slot hslot
      exact ih (fun l hl => hloops l (List.mem_cons_of_mem _ hl)) (hitem item hmem) hcells hslot

end Evaluated

/-! ### What is known of a context -/

/-- What the templates can count on, where the development login may be enabled or not. -/
structure PageContext (nonce : String) (dev : Bool) (c : Context) : Prop where
  nonce : c.lookup "csp_nonce" = some (.str nonce)
  dev : dev = false → truthy (c.lookup "dev_login_enabled") = false
  todo : ∀ v, c.lookup "todo" = some v → ∃ t, v = .todo t
  todos : ∀ v, c.lookup "todos" = some v → ∃ ts, v = .todos ts

section PageContext
variable {nonce : String} {dev : Bool} {c : Context}

/-- Behind the names of a handler stand those of every page. -/
theorem pageContext_base (context : App.RequestContext) (h : context.cspNonce = nonce) :
    PageContext nonce dev (App.baseContext context) := by
  subst h
  exact ⟨rfl, fun _ => rfl, nofun, nofun⟩

/-- Any other name may be added. -/
theorem PageContext.cons (h : PageContext nonce dev c) {name : String} (v : Value)
    (hname : name ∉ ["csp_nonce", "dev_login_enabled", "todo", "todos"]) :
    PageContext nonce dev ((name, v) :: c) := by
  have hlookup (other : String)
      (hother : other ∈ ["csp_nonce", "dev_login_enabled", "todo", "todos"]) :
      List.lookup other ((name, v) :: c) = c.lookup other := by
    have hne : (other == name) = false := beq_eq_false_iff_ne.mpr fun heq => hname (heq ▸ hother)
    rw [List.lookup_cons, hne]
  constructor
  · rw [hlookup _ (by decide)]
    exact h.nonce
  · rw [hlookup _ (by decide)]
    exact h.dev
  · rw [hlookup _ (by decide)]
    exact h.todo
  · rw [hlookup _ (by decide)]
    exact h.todos

theorem PageContext.withTodo (h : PageContext nonce dev c) (t : Domain.Todo) :
    PageContext nonce dev (("todo", .todo t) :: c) where
  nonce := h.nonce
  dev := h.dev
  todo _ hv := ⟨t, (Option.some.inj hv).symm⟩
  todos := h.todos

theorem PageContext.withTodos (h : PageContext nonce dev c) (ts : List Domain.Todo) :
    PageContext nonce dev (("todos", .todos ts) :: c) where
  nonce := h.nonce
  dev := h.dev
  todo := h.todo
  todos _ hv := ⟨ts, (Option.some.inj hv).symm⟩

theorem PageContext.withDev (h : PageContext nonce dev c) :
    PageContext nonce dev (("dev_login_enabled", .bool dev) :: c) where
  nonce := h.nonce
  dev hdev := hdev
  todo := h.todo
  todos := h.todos

/-- The contexts of the handlers' pages. -/
theorem pageContext_of_isPage {state : App.AppState} {template : String} {page : Context}
    (h : Router.IsPage state nonce template page) :
    PageContext nonce state.devLoginEnabled page := by
  cases h with
  | login context next msg h =>
      exact ((pageContext_base context h).withDev.cons _ (by decide)).cons _ (by decide)
  | signup context msg h => exact (pageContext_base context h).cons _ (by decide)
  | index context user todos h =>
      exact ((pageContext_base context h).withTodos todos).cons _ (by decide)
  | list context todos h => exact (pageContext_base context h).withTodos todos
  | todo context todo h => exact (pageContext_base context h).withTodo todo

/-- The items of the list of todos are todos. -/
theorem pageContext_itemsKeep {σ : Type} {helpers : Helpers σ} {name : String} {t : Template}
    (ht : templateOf name = some t) : ItemsKeep (PageContext nonce dev) helpers t.loops := by
  intro loop hloop context hcontext v vs hv hvs item hitem
  obtain rfl := List.mem_singleton.mp ((templateOf_conditions ht).2 hloop)
  cases hv
  cases htodos : context.lookup "todos" with
  | none =>
      rw [htodos] at hvs
      cases hvs
      cases hitem
  | some v =>
      obtain ⟨ts, rfl⟩ := hcontext.todos v htodos
      rw [htodos] at hvs
      cases hvs
      obtain ⟨todo, -, rfl⟩ := List.mem_map.mp hitem
      exact hcontext.withTodo todo

end PageContext

/-! ### The expressions that matter outside the page -/

section Expressions
variable {σ : Type} {helpers : Helpers σ} {nonce : String} {dev : Bool} {slot : Slot}

theorem Slot.Evaluated.asset (h : slot.Evaluated (PageContext nonce dev) helpers)
    {logical : String} (hlabel : slot.label = .emit (.asset logical)) :
    slot.value = helpers.asset logical := by
  obtain ⟨context, v, -, hv, hvalue⟩ := h _ hlabel
  cases hv
  exact hvalue

theorem Slot.Evaluated.cspNonce (h : slot.Evaluated (PageContext nonce dev) helpers)
    (hlabel : slot.label = .emit (.var "csp_nonce")) : slot.value = nonce := by
  obtain ⟨context, v, hcontext, hv, hvalue⟩ := h _ hlabel
  cases hv
  rw [hcontext.nonce] at hvalue
  exact hvalue

/-- The identifier of a row is that of a todo. -/
theorem Slot.Evaluated.todoId (h : slot.Evaluated (PageContext nonce dev) helpers)
    (hlabel : slot.label = .emit (.field (.var "todo") "id")) :
    ∃ t : Domain.Todo, slot.value = t.id.uuid.toString := by
  obtain ⟨context, v, hcontext, hv, hvalue⟩ := h _ hlabel
  obtain ⟨todo, htodo, hfield⟩ := bind_ok hv
  cases htodo
  cases hlookup : context.lookup "todo" with
  | none =>
      rw [hlookup] at hfield
      cases hfield
  | some w =>
      obtain ⟨t, rfl⟩ := hcontext.todo w hlookup
      rw [hlookup] at hfield
      obtain ⟨fields, hfields, rfl⟩ := map_ok hfield
      refine ⟨t, hvalue.trans ?_⟩
      unfold todoFields at hfields
      cases hcreated : helpers.rfc3339 t.createdAt with
      | error e => simp [hcreated, Except.bind, Except.mapError] at hfields
      | ok created =>
          cases hupdated : helpers.rfc3339 t.updatedAt with
          | error e =>
              simp [hcreated, hupdated, Except.bind, Except.map, Except.mapError] at hfields
          | ok updated =>
              rw [hcreated, hupdated] at hfields
              cases hfields
              rfl

end Expressions

/-! ### What a browser reads in an attribute -/

/-- The text of an attribute value, with its references decoded. -/
def readValue (value : List (Cell Empty)) : String :=
  String.ofList (decode references (value.flatMap fun
    | .char c => [c]
    | .hole h => nomatch h))

def readAttribute (tag : Tag Empty) (name : List Char) : Option String :=
  (valueOf tag name).map readValue

/-- What stands in the template, with the values themselves. -/
def reading (value : List (Cell Slot)) : List Char :=
  value.flatMap fun
    | .char c => [c]
    | .hole slot => slot.value.toList

/-- A browser reads the values, if the template has no references of its own there. -/
theorem readValue_filled {value : List (Cell Slot)} (h : .char '&' ∉ value) :
    readValue (fillCells filled value) = String.ofList (reading value) := by
  refine congrArg String.ofList ?_
  induction value with
  | nil => rfl
  | cons cell value ih =>
      have hrest := ih fun hmem => h (List.mem_cons_of_mem _ hmem)
      unfold fillCells reading at *
      rw [List.flatMap_cons, List.flatMap_append, List.flatMap_cons]
      cases cell with
      | char c =>
          have hne : c ≠ '&' := fun heq => h (heq ▸ List.mem_cons_self ..)
          exact (decode_encodes references_unambiguous (Or.inr ⟨rfl, hne⟩) _).trans
            (congrArg (c :: ·) hrest)
      | hole slot =>
          have hraw : (Cell.fill filled (.hole slot)).flatMap (fun
              | .char c => [c]
              | .hole h => nomatch h) = slot.raw := by
            simp [Cell.fill, filled, List.flatMap_map]
          rw [hraw, slot.decode_raw, hrest]

/-- The label of a cell. -/
def cellLabel : Cell Slot → Cell Label
  | .char c => .char c
  | .hole slot => .hole slot.label

theorem labelled_eq_map (cells : List (Cell Slot)) : labelled cells = cells.map cellLabel := by
  unfold labelled fillCells
  rw [List.map_eq_flatMap]
  refine List.flatMap_congr fun cell _ => ?_
  cases cell with
  | char c => rfl
  | hole slot => rfl

end TodoRust.Pages
