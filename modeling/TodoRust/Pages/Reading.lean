import TodoRust.Pages.Template
import Mathlib.Data.List.Dedup

/-!
# Reading a template

The states a tokenizer can be in after a template, whatever is put in, are found on
the template itself. The values are holes there, both ways of a condition are taken,
and a loop has to end in the state it begins in.
-/

namespace TodoRust.Pages
open Lib Html

/-- The page with only the places marked where something was put in. -/
def labelled (cells : List (Cell Slot)) : List (Cell Label) :=
  fillCells (relabel Slot.label) cells

section Reach
variable (contentOf : List Char → Content) (allowed : Token Label → Bool)

/-- The state after symbols, if all tokens are allowed. -/
def advance (s : State Label) (cells : List (Cell Label)) : Option (List (State Label)) :=
  (run contentOf s cells).bind fun next => if next.2.all allowed then some [next.1] else none

/-- The states after any of some. -/
def eachState (f : State Label → Option (List (State Label))) :
    List (State Label) → Option (List (State Label))
  | [] => some []
  | s :: ss => (f s).bind fun ends => (eachState f ss).map fun others => (ends ++ others).dedup

/-- The states a template can end in; `none` if a value can stand where none may. -/
def Template.reach : Template → State Label → Option (List (State Label))
  | .nothing, s => some [s]
  | .text l, s => advance contentOf allowed s (l.chars.map .char)
  | .emit e, s => advance contentOf allowed s [.hole (.emit e)]
  | .datetime _ _, s => advance contentOf allowed s (timeCells .iso .style .inner)
  | .seq first rest, s =>
      (first.reach s).bind fun mids => eachState rest.reach mids
  | .ifElse _ yes no, s =>
      (yes.reach s).bind fun ends => (no.reach s).map fun others => (ends ++ others).dedup
  | .forIn _ _ body, s => if body.reach s = some [s] then some [s] else none

/-- The page is read to the end, from one state to another of these, and all its tokens
are allowed. -/
def ReadsTo (s : State Label) (cells : List (Cell Slot)) (ends : List (State Label)) : Prop :=
  ∃ s' ∈ ends, ∃ tokens, run contentOf s (labelled cells) = some (s', tokens) ∧
    ∀ token ∈ tokens, allowed token = true

variable {contentOf allowed}

theorem eachState_subset {f : State Label → Option (List (State Label))}
    {mids ends : List (State Label)} (h : eachState f mids = some ends) {mid : State Label}
    (hmid : mid ∈ mids) : ∃ own, f mid = some own ∧ own ⊆ ends := by
  induction mids generalizing ends with
  | nil => cases hmid
  | cons s ss ih =>
      obtain ⟨first, hfirst, hrest⟩ := Option.bind_eq_some_iff.mp h
      obtain ⟨others, hothers, rfl⟩ := Option.map_eq_some_iff.mp hrest
      rcases List.mem_cons.mp hmid with rfl | hmid
      · exact ⟨first, hfirst, fun s' hs' => List.mem_dedup.mpr (List.mem_append_left _ hs')⟩
      · obtain ⟨own, hown, hsub⟩ := ih hothers hmid
        exact ⟨own, hown, fun s' hs' => List.mem_dedup.mpr (List.mem_append_right _ (hsub hs'))⟩

theorem ReadsTo.nil (s : State Label) : ReadsTo contentOf allowed s [] [s] :=
  ⟨s, List.mem_singleton_self s, [], rfl, fun token htoken => by cases htoken⟩

theorem ReadsTo.mono {s : State Label} {cells : List (Cell Slot)} {ends more : List (State Label)}
    (h : ReadsTo contentOf allowed s cells ends) (hsub : ends ⊆ more) :
    ReadsTo contentOf allowed s cells more := by
  obtain ⟨s', hs', hread⟩ := h
  exact ⟨s', hsub hs', hread⟩

/-- The parts of a page are read one after the other. -/
theorem ReadsTo.append {s : State Label} {first rest : List (Cell Slot)}
    {mids ends : List (State Label)} (hfirst : ReadsTo contentOf allowed s first mids)
    (hrest : ∀ mid ∈ mids, ReadsTo contentOf allowed mid rest ends) :
    ReadsTo contentOf allowed s (first ++ rest) ends := by
  obtain ⟨mid, hmid, before, hbefore, hallowed⟩ := hfirst
  obtain ⟨s', hs', after, hafter, hallowed'⟩ := hrest mid hmid
  refine ⟨s', hs', before ++ after, ?_, ?_⟩
  · unfold labelled at *
    rw [fillCells_append, run_append, hbefore, Option.bind_some, hafter]
    rfl
  · intro token htoken
    rcases List.mem_append.mp htoken with htoken | htoken
    · exact hallowed token htoken
    · exact hallowed' token htoken

theorem readsTo_of_advance {s : State Label} {cells : List (Cell Slot)} {ends : List (State Label)}
    (h : advance contentOf allowed s (labelled cells) = some ends) :
    ReadsTo contentOf allowed s cells ends := by
  obtain ⟨⟨s', tokens⟩, hrun, hends⟩ := Option.bind_eq_some_iff.mp h
  split at hends
  · rename_i hallowed
    obtain rfl := Option.some.inj hends
    exact ⟨s', List.mem_singleton_self s', tokens, hrun, List.all_eq_true.mp hallowed⟩
  · cases hends

theorem labelled_chars (cs : List Char) : labelled (cs.map .char) = cs.map .char := by
  induction cs with
  | nil => rfl
  | cons c cs ih => exact congrArg (.char c :: ·) ih

section Sound
variable {σ : Type} {helpers : Helpers σ}

/-- The items of a loop are read from one state back to it. -/
theorem eachItem_reads {body : Value → σ → Except Failure (List (Cell Slot) × σ)}
    {s : State Label}
    (hbody : ∀ v th cells th', body v th = .ok (cells, th') →
      ReadsTo contentOf allowed s cells [s])
    {vs : List Value} {th th' : σ} {cells : List (Cell Slot)}
    (h : eachItem body vs th = .ok (cells, th')) : ReadsTo contentOf allowed s cells [s] := by
  induction vs generalizing th cells with
  | nil =>
      cases h
      exact ReadsTo.nil s
  | cons v vs ih =>
      obtain ⟨first, hfirst, hlater⟩ := bind_ok h
      obtain ⟨rest, hrest, heq⟩ := map_ok hlater
      cases heq
      refine (hbody v th first.1 first.2 hfirst).append fun mid hmid => ?_
      obtain rfl := List.mem_singleton.mp hmid
      exact ih hrest

/-- What is found on a template holds of every page it renders to. -/
theorem Template.cells_reads {template : Template} {context : Context} {th th' : σ}
    {cells : List (Cell Slot)} (h : template.cells helpers context th = .ok (cells, th'))
    {s : State Label} {ends : List (State Label)}
    (hreach : template.reach contentOf allowed s = some ends) :
    ReadsTo contentOf allowed s cells ends := by
  induction template generalizing context th th' cells s ends with
  | nothing =>
      cases h
      obtain rfl := Option.some.inj hreach
      exact ReadsTo.nil s
  | text l =>
      cases h
      exact readsTo_of_advance ((congrArg _ (labelled_chars l.chars)).trans hreach)
  | emit e =>
      obtain ⟨v, _, heq⟩ := map_ok h
      cases heq
      exact readsTo_of_advance hreach
  | datetime e style =>
      obtain ⟨v, _, hdate⟩ := bind_ok h
      obtain ⟨parts, _, heq⟩ := map_ok hdate
      cases heq
      exact readsTo_of_advance hreach
  | seq first rest ihFirst ihRest =>
      obtain ⟨mids, hmids, hends⟩ := Option.bind_eq_some_iff.mp hreach
      obtain ⟨before, hbefore, hlater⟩ := bind_ok h
      obtain ⟨after, hafter, heq⟩ := map_ok hlater
      cases heq
      refine (ihFirst hbefore hmids).append fun mid hmid => ?_
      obtain ⟨own, hown, hsub⟩ := eachState_subset hends hmid
      exact (ihRest hafter hown).mono hsub
  | ifElse condition yes no ihYes ihNo =>
      obtain ⟨ends, hyes, hothers⟩ := Option.bind_eq_some_iff.mp hreach
      obtain ⟨others, hno, rfl⟩ := Option.map_eq_some_iff.mp hothers
      obtain ⟨v, _, hbranch⟩ := bind_ok h
      split at hbranch
      · exact (ihYes hbranch hyes).mono fun s' hs' =>
          List.mem_dedup.mpr (List.mem_append_left _ hs')
      · exact (ihNo hbranch hno).mono fun s' hs' =>
          List.mem_dedup.mpr (List.mem_append_right _ hs')
  | forIn name e body ih =>
      rw [Template.reach] at hreach
      split at hreach
      · rename_i hbody
        obtain rfl := Option.some.inj hreach
        obtain ⟨v, _, hloop⟩ := bind_ok h
        obtain ⟨vs, _, heach⟩ := bind_ok hloop
        exact eachItem_reads (fun v th cells th' hcells => ih hcells hbody) heach
      · cases hreach

end Sound

end Reach

end TodoRust.Pages
