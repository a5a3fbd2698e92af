import Mathlib.Algebra.FreeMonoid.Basic
import TodoRust.App.State
import TodoRust.Lib.AnyOrder

/-!
# The order of validation messages

The errors of a form are kept in a hash map, and its iteration order is that of the
localized messages. The text does not depend on the order exactly if the messages of
any two fields read the same one after the other and the other way round.
-/

namespace TodoRust.App
open Lib Domain I18n

section Messages
variable (self : AppState) (locale : LanguageIdentifier)

/-- The messages of a field, each after a space. -/
def fieldText (entry : String × List ValidationError) : List Char :=
  entry.2.flatMap fun e => ' ' :: (self.lookup locale (e.message.getD e.code)).toList

/-- The texts of any two fields may trade places. -/
def TextsCommute (errs : ValidationErrors) : Prop :=
  ∀ a ∈ errs, ∀ b ∈ errs,
    fieldText self locale a ++ fieldText self locale b =
      fieldText self locale b ++ fieldText self locale a

/-- The message is the same in any two iteration orders of the field map. -/
def OrderIndependent (errs : ValidationErrors) : Prop :=
  ∀ first second : ValidationErrors, first.Perm errs → second.Perm errs →
    self.localizeValidationErrors locale first = self.localizeValidationErrors locale second

/-- There is an error in some field. -/
def HasErrors (errs : ValidationErrors) : Prop := ∃ entry ∈ errs, entry.2 ≠ []

end Messages

section Order
variable {self : AppState} {locale : LanguageIdentifier} {errs : ValidationErrors}

theorem space_intercalate {parts : List String} (h : parts ≠ []) :
    ' ' :: (" ".intercalate parts).toList = parts.flatMap fun part => ' ' :: part.toList := by
  rw [String.toList_intercalate]
  induction parts with
  | nil => exact absurd rfl h
  | cons part rest ih =>
      cases rest with
      | nil => simp
      | cons next rest =>
          have hrest := ih (List.cons_ne_nil next rest)
          rw [List.flatMap_cons, ← hrest]
          simp

theorem HasErrors.perm {errs' : ValidationErrors} (h : HasErrors errs) (hperm : errs'.Perm errs) :
    HasErrors errs' := by
  obtain ⟨entry, hmem, hne⟩ := h
  exact ⟨entry, hperm.mem_iff.mpr hmem, hne⟩

/-- Behind a space, the message is the texts of the fields in a row. -/
theorem localizeValidationErrors_toList (h : HasErrors errs) :
    ' ' :: (self.localizeValidationErrors locale errs).toList =
      errs.flatMap (fieldText self locale) := by
  have hparts : (errs.flatMap fun entry =>
      entry.2.map fun e => self.lookup locale (e.message.getD e.code)) ≠ [] := by
    obtain ⟨entry, hmem, hne⟩ := h
    rw [Ne, List.flatMap_eq_nil_iff]
    exact fun hall => hne (List.map_eq_nil_iff.mp (hall entry hmem))
  have hempty := mt List.isEmpty_iff.mp hparts
  unfold AppState.localizeValidationErrors
  dsimp only
  rw [if_neg hempty, space_intercalate hparts, List.flatMap_assoc]
  refine List.flatMap_congr fun entry _ => ?_
  rw [fieldText, List.flatMap_map]

theorem localizeValidationErrors_generic (h : ¬ HasErrors errs) :
    self.localizeValidationErrors locale errs = self.lookup locale "validation-generic" := by
  have hparts : (errs.flatMap fun entry =>
      entry.2.map fun e => self.lookup locale (e.message.getD e.code)) = [] := by
    rw [List.flatMap_eq_nil_iff]
    intro entry hmem
    by_contra hne
    exact h ⟨entry, hmem, fun hnil => hne (List.map_eq_nil_iff.mpr hnil)⟩
  unfold AppState.localizeValidationErrors
  dsimp only
  rw [hparts]
  rfl

theorem localizeValidationErrors_eq_iff {errs' : ValidationErrors} (h : HasErrors errs)
    (hperm : errs'.Perm errs) :
    self.localizeValidationErrors locale errs' = self.localizeValidationErrors locale errs ↔
      errs'.flatMap (fieldText self locale) = errs.flatMap (fieldText self locale) := by
  rw [← localizeValidationErrors_toList h, ← localizeValidationErrors_toList (h.perm hperm),
    List.cons.injEq, and_iff_right rfl, String.toList_inj]

theorem flatMap_fieldText (errs : ValidationErrors) :
    FreeMonoid.ofList (errs.flatMap (fieldText self locale)) =
      (errs.map fun entry => FreeMonoid.ofList (fieldText self locale entry)).prod := by
  rw [List.flatMap_def, FreeMonoid.ofList_flatten, List.map_map]
  rfl

/-- Without errors there are no texts. -/
theorem textsCommute_of_not_hasErrors (h : ¬ HasErrors errs) : TextsCommute self locale errs := by
  have hnil : ∀ entry ∈ errs, fieldText self locale entry = [] := by
    intro entry hmem
    have hnone : entry.2 = [] := by
      by_contra hne
      exact h ⟨entry, hmem, hne⟩
    rw [fieldText, hnone, List.flatMap_nil]
  intro a ha b hb
  rw [hnil a ha, hnil b hb]

end Order

/-- The message of a form is the same in every order of its errors exactly if the texts
of any two fields may trade places. -/
theorem localizeValidationErrors_order_iff (self : AppState) (locale : LanguageIdentifier)
    (errs : ValidationErrors) :
    OrderIndependent self locale errs ↔ TextsCommute self locale errs := by
  by_cases h : HasErrors errs
  · have hprod := @prod_map_perm_iff _ _ errs _
      fun entry => FreeMonoid.ofList (fieldText self locale entry)
    have horder : OrderIndependent self locale errs ↔
        ∀ errs' : ValidationErrors, errs'.Perm errs →
          errs'.flatMap (fieldText self locale) = errs.flatMap (fieldText self locale) := by
      constructor
      · intro hall errs' hperm
        exact (localizeValidationErrors_eq_iff h hperm).mp (hall errs' errs hperm (.refl errs))
      · intro hall first second hfirst hsecond
        exact ((localizeValidationErrors_eq_iff h hfirst).mpr (hall first hfirst)).trans
          ((localizeValidationErrors_eq_iff h hsecond).mpr (hall second hsecond)).symm
    rw [horder]
    simp only [← flatMap_fieldText, EmbeddingLike.apply_eq_iff_eq] at hprod
    exact hprod
  · refine iff_of_true (fun first second hfirst hsecond => ?_) (textsCommute_of_not_hasErrors h)
    rw [localizeValidationErrors_generic fun hfound => h (hfound.perm hfirst.symm),
      localizeValidationErrors_generic fun hfound => h (hfound.perm hsecond.symm)]

/-! ### A form that fails in two fields -/

/-- The messages of the login form in English. -/
def englishMessages : AppState :=
  { AppState.plain with
    lookup := fun _ id =>
      if id = "validation-email-invalid" then "Please enter a valid email address."
      else if id = "validation-password-empty" then "Please enter your pass-phrase."
      else id }

/-- A name in place of the email, and no password. -/
def emptyLogin : Credentials := ⟨"ann", "", none⟩

/-- The login form with both errors has two messages. -/
theorem two_errors_two_messages :
    ¬ ∀ (self : AppState) (locale : LanguageIdentifier) (errs : ValidationErrors),
      (errs.map Prod.fst).Nodup → OrderIndependent self locale errs := by
  intro hall
  have hswap := hall englishMessages ⟨"en", none, none, []⟩
    (emptyLogin.validate englishMessages.validateEmail) (by decide) _
    (emptyLogin.validate englishMessages.validateEmail).reverse (.refl _) (List.reverse_perm _)
  exact absurd hswap (by decide)

end TodoRust.App
