import TodoRust.Pages.Environment
import TodoRust.Pages.Tags
import Mathlib.Data.Option.Basic
import Mathlib.Data.List.Forall2

/-!
# What decides the markup of a page

A page takes another form only where a template asks: whether somebody is logged in,
whether there is an error or somewhere to go next, which locale is chosen, and which
todos there are and which of them are done. Everything else that is put in leaves the
markup as it is.
-/

namespace TodoRust.Pages
open Lib Html

/-! ### Conditions -/

/-- The conditions of a template, those of loops and branches included. -/
def Template.conditions : Template → List Expr
  | .nothing | .text _ | .emit _ | .datetime _ _ => []
  | .seq first rest => first.conditions ++ rest.conditions
  | .ifElse condition yes no => condition :: (yes.conditions ++ no.conditions)
  | .forIn _ _ body => body.conditions

/-- The loops of a template: the name of an item, and what is gone through. -/
def Template.loops : Template → List (String × Expr)
  | .nothing | .text _ | .emit _ | .datetime _ _ => []
  | .seq first rest => first.loops ++ rest.loops
  | .ifElse _ yes no => yes.loops ++ no.loops
  | .forIn name e body => (name, e) :: body.loops

section Agree
variable {σ σ' : Type} (helpers : Helpers σ) (helpers' : Helpers σ')

/-- Two contexts that one condition does not tell apart. -/
def Decides (condition : Expr) (context context' : Context) : Prop :=
  ∀ v v', condition.eval helpers context = .ok v → condition.eval helpers' context' = .ok v' →
    truthy v = truthy v'

variable {helpers helpers'} {R : Context → Context → Prop}

theorem eachItem_alike {body : Value → σ → Except Failure (List (Cell Slot) × σ)}
    {body' : Value → σ' → Except Failure (List (Cell Slot) × σ')} {vs vs' : List Value}
    (hbody : List.Forall₂ (fun v v' => ∀ s s₁ s' s₁' cells cells', body v s = .ok (cells, s₁) →
      body' v' s' = .ok (cells', s₁') → labelled cells = labelled cells') vs vs')
    {s s₁ : σ} {s' s₁' : σ'} {cells cells' : List (Cell Slot)}
    (h : eachItem body vs s = .ok (cells, s₁)) (h' : eachItem body' vs' s' = .ok (cells', s₁')) :
    labelled cells = labelled cells' := by
  induction hbody generalizing s s' cells cells' with
  | nil =>
      cases h
      cases h'
      rfl
  | cons hfirst _ ih =>
      obtain ⟨⟨first, mid⟩, hitem, hlater⟩ := bind_ok h
      obtain ⟨⟨first', mid'⟩, hitem', hlater'⟩ := bind_ok h'
      obtain ⟨⟨rest, last⟩, hrest, heq⟩ := map_ok hlater
      obtain ⟨⟨rest', last'⟩, hrest', heq'⟩ := map_ok hlater'
      cases heq
      cases heq'
      have hitems := hfirst _ _ _ _ _ _ hitem hitem'
      have hothers := ih hrest hrest'
      unfold labelled at *
      rw [fillCells_append, fillCells_append, hitems, hothers]

/-- Contexts that no condition tells apart are rendered to pages that differ only in what
is put in. -/
theorem Template.cells_alike {t : Template} {context context' : Context}
    (hconditions : ∀ condition ∈ t.conditions, ∀ c c', R c c' →
      Decides helpers helpers' condition c c')
    (hloops : ∀ loop ∈ t.loops, ∀ c c', R c c' → ∀ v v' vs vs',
      loop.2.eval helpers c = .ok v → loop.2.eval helpers' c' = .ok v' →
      items v = .ok vs → items v' = .ok vs' →
      List.Forall₂ (fun v v' => R ((loop.1, v) :: c) ((loop.1, v') :: c')) vs vs')
    (hR : R context context') {s s₁ : σ} {s' s₁' : σ'} {cells cells' : List (Cell Slot)}
    (h : t.cells helpers context s = .ok (cells, s₁))
    (h' : t.cells helpers' context' s' = .ok (cells', s₁')) :
    labelled cells = labelled cells' := by
  induction t generalizing context context' s s₁ s' s₁' cells cells' with
  | nothing =>
      cases h
      cases h'
      rfl
  | text l =>
      cases h
      cases h'
      rfl
  | emit e =>
      obtain ⟨v, _, heq⟩ := map_ok h
      obtain ⟨v', _, heq'⟩ := map_ok h'
      cases heq
      cases heq'
      rfl
  | datetime e style =>
      obtain ⟨v, _, hdate⟩ := bind_ok h
      obtain ⟨v', _, hdate'⟩ := bind_ok h'
      obtain ⟨parts, _, heq⟩ := map_ok hdate
      obtain ⟨parts', _, heq'⟩ := map_ok hdate'
      cases heq
      cases heq'
      rfl
  | seq first rest ihFirst ihRest =>
      obtain ⟨⟨before, mid⟩, hbefore, hlater⟩ := bind_ok h
      obtain ⟨⟨before', mid'⟩, hbefore', hlater'⟩ := bind_ok h'
      obtain ⟨⟨after, last⟩, hafter, heq⟩ := map_ok hlater
      obtain ⟨⟨after', last'⟩, hafter', heq'⟩ := map_ok hlater'
      cases heq
      cases heq'
      have hsame := ihFirst (fun c hc => hconditions c (List.mem_append_left _ hc))
        (fun l hl => hloops l (List.mem_append_left _ hl)) hR hbefore hbefore'
      have hsame' := ihRest (fun c hc => hconditions c (List.mem_append_right _ hc))
        (fun l hl => hloops l (List.mem_append_right _ hl)) hR hafter hafter'
      unfold labelled at *
      rw [fillCells_append, fillCells_append, hsame, hsame']
  | ifElse condition yes no ihYes ihNo =>
      obtain ⟨v, hv, hbranch⟩ := bind_ok h
      obtain ⟨v', hv', hbranch'⟩ := bind_ok h'
      have hsame : truthy v = truthy v' :=
        hconditions condition (List.mem_cons_self ..) _ _ hR v v' hv hv'
      rw [← hsame] at hbranch'
      split at hbranch
      · rename_i hyes
        rw [if_pos hyes] at hbranch'
        exact ihYes
          (fun c hc => hconditions c (List.mem_cons_of_mem _ (List.mem_append_left _ hc)))
          (fun l hl => hloops l (List.mem_append_left _ hl)) hR hbranch hbranch'
      · rename_i hno
        rw [if_neg hno] at hbranch'
        exact ihNo
          (fun c hc => hconditions c (List.mem_cons_of_mem _ (List.mem_append_right _ hc)))
          (fun l hl => hloops l (List.mem_append_right _ hl)) hR hbranch hbranch'
  | forIn name e body ih =>
      obtain ⟨v, hv, hloop⟩ := bind_ok h
      obtain ⟨v', hv', hloop'⟩ := bind_ok h'
      obtain ⟨vs, hvs, heach⟩ := bind_ok hloop
      obtain ⟨vs', hvs', heach'⟩ := bind_ok hloop'
      have hitems := hloops (name, e) (List.mem_cons_self ..) _ _ hR v v' vs vs' hv hv' hvs hvs'
      refine eachItem_alike (hitems.imp fun item item' hitem => ?_) heach heach'
      intro s s₁ s' s₁' cells cells' hcells hcells'
      exact ih hconditions (fun l hl => hloops l (List.mem_cons_of_mem _ hl)) hitem hcells hcells'

end Agree

/-! ### The contexts of the pages -/

def SameTodo : Value → Value → Prop
  | .todo a, .todo b => a.completed = b.completed
  | _, _ => False

def SameTodos : Value → Value → Prop
  | .todos as, .todos bs => List.Forall₂ (fun a b => a.completed = b.completed) as bs
  | _, _ => False

/-- Two contexts that the templates do not tell apart. -/
structure Alike (c c' : Context) : Prop where
  locale : c.lookup "_locale" = c'.lookup "_locale"
  flags : ∀ name ∈ ["user", "error", "next", "dev_login_enabled"],
    truthy (c.lookup name) = truthy (c'.lookup name)
  todo : Option.Rel SameTodo (c.lookup "todo") (c'.lookup "todo")
  todos : Option.Rel SameTodos (c.lookup "todos") (c'.lookup "todos")

/-- A date has a text. -/
def Helpers.WritesDates {σ : Type} (helpers : Helpers σ) : Prop :=
  ∀ t, helpers.rfc3339 t ≠ .ok ""

/-- The conditions of the templates. -/
def knownConditions : List Expr :=
  ["user", "error", "next", "dev_login_enabled"].map .var ++
  ["en", "es", "fr", "de"].map (fun locale => .eq (.var "_locale") (.text locale)) ++
  ["completed", "created_at", "updated_at"].map (.field (.var "todo"))

theorem templateOf_conditions {name : String} {t : Template} (h : templateOf name = some t) :
    t.conditions ⊆ knownConditions ∧ t.loops ⊆ [("todo", .var "todos")] := by
  unfold templateOf at h
  split at h
  all_goals cases h
  all_goals exact ⟨by decide +kernel, by decide +kernel⟩

section Contexts
variable {σ σ' : Type} {helpers : Helpers σ} {helpers' : Helpers σ'} {c c' : Context}

/-- Whether a field of a todo counts as true. -/
theorem truthy_field {t : Domain.Todo} {name : String} {v : Option Value}
    (hdates : helpers.WritesDates) (hname : name ∈ ["completed", "created_at", "updated_at"])
    (h : fieldOf helpers name (some (.todo t)) = .ok v) :
    truthy v = (if name = "completed" then t.completed else true) := by
  obtain ⟨fields, hfields, rfl⟩ := map_ok h
  cases hcreated : helpers.rfc3339 t.createdAt with
  | error e => simp [todoFields, hcreated, Except.bind, Except.mapError] at hfields
  | ok created =>
      cases hupdated : helpers.rfc3339 t.updatedAt with
      | error e =>
          simp [todoFields, hcreated, hupdated, Except.bind, Except.map, Except.mapError] at hfields
      | ok updated =>
          have hne : created ≠ "" := fun heq => hdates _ (heq ▸ hcreated)
          have hne' : updated ≠ "" := fun heq => hdates _ (heq ▸ hupdated)
          simp only [todoFields, hcreated, hupdated, Except.bind, Except.map, Except.mapError,
            Except.ok.injEq] at hfields
          subst hfields
          simp only [List.mem_cons, List.not_mem_nil, or_false] at hname
          rcases hname with rfl | rfl | rfl
          · rfl
          · exact decide_eq_true hne
          · exact decide_eq_true hne'

theorem Alike.decides_field (h : Alike c c') (hdates : helpers.WritesDates)
    (hdates' : helpers'.WritesDates) {name : String}
    (hname : name ∈ ["completed", "created_at", "updated_at"]) :
    Decides helpers helpers' (.field (.var "todo") name) c c' := by
  intro v v' hv hv'
  obtain ⟨todo, htodo, hfield⟩ := bind_ok hv
  obtain ⟨todo', htodo', hfield'⟩ := bind_ok hv'
  have hrel := h.todo
  rw [Except.ok.inj htodo, Except.ok.inj htodo'] at hrel
  cases hrel with
  | none => cases hfield
  | @some a b hab =>
      cases a with
      | todo t =>
          cases b with
          | todo t' =>
              have hsame : t.completed = t'.completed := hab
              rw [truthy_field hdates hname hfield, truthy_field hdates' hname hfield', hsame]
          | str | bool | none | user | todos => exact hab.elim
      | str | bool | none | user | todos => exact hab.elim

/-- No condition of the templates tells alike contexts apart. -/
theorem Alike.decides (h : Alike c c') (hdates : helpers.WritesDates)
    (hdates' : helpers'.WritesDates) {condition : Expr} (hknown : condition ∈ knownConditions) :
    Decides helpers helpers' condition c c' := by
  rcases List.mem_append.mp hknown with hknown | hfield
  · rcases List.mem_append.mp hknown with hflag | hlocale
    · obtain ⟨name, hname, rfl⟩ := List.mem_map.mp hflag
      rintro v v' hv hv'
      cases hv
      cases hv'
      exact h.flags name hname
    · obtain ⟨locale, _, rfl⟩ := List.mem_map.mp hlocale
      rintro v v' hv hv'
      cases hv
      cases hv'
      rw [h.locale]
  · obtain ⟨name, hname, rfl⟩ := List.mem_map.mp hfield
    exact h.decides_field hdates hdates' hname

/-- An item of the loop that both contexts go through. -/
theorem Alike.cons (h : Alike c c') {a b : Domain.Todo} (hab : a.completed = b.completed) :
    Alike (("todo", .todo a) :: c) (("todo", .todo b) :: c') where
  locale := h.locale
  flags name hname := by
    have hne : (name == "todo") = false := by
      refine beq_eq_false_iff_ne.mpr ?_
      rintro rfl
      exact absurd hname (by decide)
    rw [List.lookup_cons, List.lookup_cons, hne]
    exact h.flags name hname
  todo := .some hab
  todos := h.todos

theorem Alike.loop (h : Alike c c') {v v' : Option Value} {vs vs' : List Value}
    (hv : v = c.lookup "todos") (hv' : v' = c'.lookup "todos") (hvs : items v = .ok vs)
    (hvs' : items v' = .ok vs') :
    List.Forall₂ (fun v v' => Alike (("todo", v) :: c) (("todo", v') :: c')) vs vs' := by
  have hrel := h.todos
  rw [← hv, ← hv'] at hrel
  cases hrel with
  | none =>
      cases hvs
      cases hvs'
      exact .nil
  | @some a b hab =>
      cases a with
      | todos ts =>
          cases b with
          | todos ts' =>
              cases hvs
              cases hvs'
              exact List.forall₂_map_left_iff.mpr (List.forall₂_map_right_iff.mpr
                (List.Forall₂.imp (fun _ _ => h.cons) hab))
          | str | bool | none | user | todo => exact hab.elim
      | str | bool | none | user | todo => exact hab.elim

/-- Pages of alike contexts differ only in what is put in. -/
theorem Alike.labelled (h : Alike c c') (hdates : helpers.WritesDates)
    (hdates' : helpers'.WritesDates) {name : String} {t : Template}
    (ht : templateOf name = some t) {s s₁ : σ} {s' s₁' : σ'} {cells cells' : List (Cell Slot)}
    (hcells : t.cells helpers c s = .ok (cells, s₁))
    (hcells' : t.cells helpers' c' s' = .ok (cells', s₁')) :
    labelled cells = Pages.labelled cells' := by
  obtain ⟨hconditions, hloops⟩ := templateOf_conditions ht
  refine Template.cells_alike (R := Alike)
    (fun condition hcondition c c' halike => halike.decides hdates hdates' (hconditions hcondition))
    ?_ h hcells hcells'
  intro loop hloop c c' halike v v' vs vs' hv hv' hvs hvs'
  obtain rfl := List.mem_singleton.mp (hloops hloop)
  cases hv
  cases hv'
  exact halike.loop rfl rfl hvs hvs'

theorem page_reads (scripting : Bool) {name : String} {t : Template}
    (ht : templateOf name = some t) {s s₁ : σ} {cells : List (Cell Slot)}
    (hcells : t.cells helpers c s = .ok (cells, s₁)) :
    ReadsTo (content scripting) (allowed true) .data cells [.data] :=
  templateOf_leads (I := fun _ => True) ht (Or.inl rfl) c trivial s cells s₁ hcells

/-- Pages that are asked the same have the same markup: their tokens differ in the values
that were put in, and where references are decoded each value is decoded to what it was.
In the value a browser still replaces NUL, and a carriage return by a line feed. -/
theorem page_markup_fixed (scripting : Bool) {name : String} {t : Template}
    (ht : templateOf name = some t) (hdates : helpers.WritesDates)
    (hdates' : helpers'.WritesDates) (h : Alike c c') {s s₁ : σ} {s' s₁' : σ'}
    {cells cells' : List (Cell Slot)} (hcells : t.cells helpers c s = .ok (cells, s₁))
    (hcells' : t.cells helpers' c' s' = .ok (cells', s₁')) :
    ∃ tokens tokens' : List (Token Slot),
      pageTokens scripting (pageText cells) = some (fillTokens filled tokens) ∧
      pageTokens scripting (pageText cells') = some (fillTokens filled tokens') ∧
      fillTokens (relabel Slot.label) tokens = fillTokens (relabel Slot.label) tokens' ∧
      ∀ (slot : Slot) (rest : List Char),
        decode references (slot.raw ++ rest) = slot.value.toList ++ decode references rest := by
  obtain ⟨tokens, -, hread, hrun, -⟩ := (page_reads scripting ht hcells).pageTokens
  obtain ⟨tokens', -, hread', hrun', -⟩ := (page_reads scripting ht hcells').pageTokens
  refine ⟨tokens, tokens', hread, hread', ?_, Slot.decode_raw⟩
  rw [h.labelled hdates hdates' ht hcells hcells', hrun'] at hrun
  exact (Prod.mk.inj (Option.some.inj hrun)).2.symm

end Contexts

/-- A row with a title. -/
def rowContext (title : String) : Context :=
  ("todo", .todo ⟨⟨⟨1⟩⟩, ⟨⟨2⟩⟩, title, false, 0, 0⟩) :: App.baseContext .plain

/-- A title that is markup, next to one that is none. -/
theorem page_markup_fixed_script : ∃ cells cells' s s', ∃ tokens tokens' : List (Token Slot),
    todoHtml.cells Environment.plain.helpers (rowContext "</p><script>alert(1)</script>") [] =
      .ok (cells, s) ∧
    todoHtml.cells Environment.plain.helpers (rowContext "milk") [] = .ok (cells', s') ∧
    pageTokens true (pageText cells) = some (fillTokens filled tokens) ∧
    pageTokens true (pageText cells') = some (fillTokens filled tokens') ∧
    fillTokens (relabel Slot.label) tokens = fillTokens (relabel Slot.label) tokens' := by
  obtain ⟨⟨cells, s⟩, hcells⟩ : ∃ r, todoHtml.cells Environment.plain.helpers
    (rowContext "</p><script>alert(1)</script>") [] = .ok r := ⟨_, rfl⟩
  obtain ⟨⟨cells', s'⟩, hcells'⟩ : ∃ r, todoHtml.cells Environment.plain.helpers
    (rowContext "milk") [] = .ok r := ⟨_, rfl⟩
  have hdates : Environment.plain.helpers.WritesDates := by
    intro t h
    exact absurd (Except.ok.inj h) (by decide)
  have halike : Alike (rowContext "</p><script>alert(1)</script>") (rowContext "milk") :=
    ⟨rfl, by decide, .some rfl, .none⟩
  have ht : templateOf "partials/todo.html" = some todoHtml := rfl
  obtain ⟨tokens, tokens', hread, hread', hsame, -⟩ :=
    page_markup_fixed true ht hdates hdates halike hcells hcells'
  exact ⟨cells, cells', s, s', tokens, tokens', hcells, hcells', hread, hread', hsame⟩

end TodoRust.Pages
