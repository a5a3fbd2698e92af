import TodoRust.Pages.Markup

/-!
# The tags of the templates

What an element can do that matters outside the page: the requests it makes, and the
scripts it runs. Every tag of every template is looked at once, with the values that
are put in named but not known.
-/

namespace TodoRust.Pages
open Lib Html

/-! ### What an element does -/

section Element
variable {η : Type}

def valueOf (tag : Tag η) (name : List Char) : Option (List (Cell η)) :=
  tag.attributes.lookup name

/-- The method a form is sent with. -/
def formMethod (tag : Tag η) : String :=
  match valueOf tag (lit "method").chars with
  | some [.char 'p', .char 'o', .char 's', .char 't'] => "POST"
  | _ => "GET"

/-- The request an attribute stands for: its method and its address. -/
def requestOf (tag : Tag η) (a : List Char × List (Cell η)) : Option (String × List (Cell η)) :=
  if a.1 = (lit "href").chars then
    if tag.name = (lit "a").chars then some ("GET", a.2) else none
  else if a.1 = (lit "action").chars then some (formMethod tag, a.2)
  else if a.1 = (lit "hx-get").chars then some ("GET", a.2)
  else if a.1 = (lit "hx-post").chars then some ("POST", a.2)
  else if a.1 = (lit "hx-put").chars then some ("PUT", a.2)
  else if a.1 = (lit "hx-patch").chars then some ("PATCH", a.2)
  else if a.1 = (lit "hx-delete").chars then some ("DELETE", a.2)
  else none

/-- The requests an element makes. That of a form without an `action`, which goes to the
address of the page itself, is left out. -/
def requests (tag : Tag η) : List (String × List (Cell η)) :=
  if tag.closing then [] else tag.attributes.filterMap (requestOf tag)

def isScript (tag : Tag η) : Bool := !tag.closing && tag.name = (lit "script").chars

/-- An attribute that holds a script of its own. -/
def isHandler (a : List Char × List (Cell η)) : Bool := a.1.take 2 = (lit "on").chars

end Element

/-! ### What the elements of the templates do -/

def chars (l : Literal) : List (Cell Label) := l.chars.map .char

/-- An address below that of a todo. -/
def todoTarget (action : Literal) : List (Cell Label) :=
  chars (lit "/todos/") ++ .hole (.emit (.field (.var "todo") "id")) :: chars action

/-- The requests whose address stands in a template; that of the development login has a
form of its own. -/
def fixedTargets (dev : Bool) : List (String × Literal) :=
  [("GET", lit "/"), ("GET", lit "/login"), ("GET", lit "/signup"), ("POST", lit "/login"),
    ("POST", lit "/signup"), ("POST", lit "/logout"), ("POST", lit "/preferences/locale"),
    ("POST", lit "/todos")] ++
  (if dev then [("POST", lit "/dev/login")] else [])

/-- The requests of the templates. -/
def targets (dev : Bool) : List (String × List (Cell Label)) :=
  [("POST", todoTarget (lit "/toggle")), ("DELETE", todoTarget (lit ""))] ++
    (fixedTargets dev).map fun target => (target.1, chars target.2)

theorem targets_mono (dev : Bool) : targets false ⊆ targets dev := by
  cases dev with
  | false => exact fun _ h => h
  | true => decide

/-- A script is an asset, or has the nonce. -/
def scriptAllowed (tag : Tag Label) : Bool :=
  match valueOf tag (lit "src").chars with
  | some [.hole (.emit (.asset _))] => true
  | some _ => false
  | none => valueOf tag (lit "nonce").chars = some [.hole (.emit (.var "csp_nonce"))]

/-- The method of a form is not put in. -/
def methodFixed (tag : Tag Label) : Bool :=
  match valueOf tag (lit "method").chars with
  | some value => value = chars (lit "post")
  | none => true

def tagAllowed (dev : Bool) (tag : Tag Label) : Bool :=
  ((requests tag).all ((targets dev).contains ·) && methodFixed tag) &&
    (!isScript tag || scriptAllowed tag) && !tag.attributes.any isHandler

def allowed (dev : Bool) : Token Label → Bool
  | .tag tag => tagAllowed dev tag
  | .text _ => true

theorem allowed_mono {token : Token Label} (h : allowed false token = true) (dev : Bool) :
    allowed dev token = true := by
  cases token with
  | text cell => rfl
  | tag tag =>
      simp only [allowed, tagAllowed, Bool.and_eq_true, List.all_eq_true] at h ⊢
      refine ⟨⟨⟨fun request hrequest => ?_, h.1.1.2⟩, h.1.2⟩, h.2⟩
      have hstrict := h.1.1.1 request hrequest
      rw [List.contains_iff_mem] at hstrict ⊢
      exact targets_mono dev hstrict

/-! ### Reading the templates -/

section Leads
variable {σ : Type} (I : Context → Prop) (helpers : Helpers σ) (scripting dev : Bool)

/-- In these contexts the template is read from one state to one other. -/
def Leads (t : Template) (s s' : State Label) : Prop :=
  ∀ context, I context → ∀ th cells th', t.cells helpers context th = .ok (cells, th') →
    ReadsTo (content scripting) (allowed dev) s cells [s']

/-- A template that leads from one state to one other whatever is put in. -/
def Moves (t : Template) (s s' : State Label) : Prop :=
  t.reach (content scripting) (allowed dev) s = some [s']

instance (t : Template) (s s' : State Label) : Decidable (Moves scripting dev t s s') :=
  inferInstanceAs (Decidable (_ = _))

variable {I helpers scripting dev}

theorem Moves.leads {t : Template} {s s' : State Label} (h : Moves scripting false t s s')
    (dev : Bool) : Leads I helpers scripting dev t s s' := by
  intro context _ th cells th' hcells
  obtain ⟨last, hlast, tokens, hrun, hallowed⟩ := Template.cells_reads hcells h
  exact ⟨last, hlast, tokens, hrun, fun token htoken => allowed_mono (hallowed token htoken) dev⟩

theorem leads_nothing (s : State Label) : Leads I helpers scripting dev .nothing s s := by
  intro context _ th cells th' hcells
  cases hcells
  exact ReadsTo.nil s

theorem Leads.seq {first rest : Template} {s mid s' : State Label}
    (hfirst : Leads I helpers scripting dev first s mid)
    (hrest : Leads I helpers scripting dev rest mid s') :
    Leads I helpers scripting dev (.seq first rest) s s' := by
  intro context hI th cells th' hcells
  obtain ⟨before, hbefore, hlater⟩ := bind_ok hcells
  obtain ⟨after, hafter, heq⟩ := map_ok hlater
  cases heq
  refine (hfirst context hI th before.1 before.2 hbefore).append fun last hlast => ?_
  obtain rfl := List.mem_singleton.mp hlast
  exact hrest context hI before.2 after.1 after.2 hafter

/-- What does not apply is left out. -/
theorem Leads.ifElse_no {condition : Expr} {yes no : Template} {s s' : State Label}
    (hfalse : ∀ context, I context → ∀ v, condition.eval helpers context = .ok v →
      truthy v = false)
    (hno : Leads I helpers scripting dev no s s') :
    Leads I helpers scripting dev (.ifElse condition yes no) s s' := by
  intro context hI th cells th' hcells
  obtain ⟨v, hv, hbranch⟩ := bind_ok hcells
  rw [hfalse context hI v hv] at hbranch
  exact hno context hI th cells th' hbranch

theorem Leads.ifElse {condition : Expr} {yes no : Template} {s s' : State Label}
    (hyes : Leads I helpers scripting dev yes s s') (hno : Leads I helpers scripting dev no s s') :
    Leads I helpers scripting dev (.ifElse condition yes no) s s' := by
  intro context hI th cells th' hcells
  obtain ⟨v, _, hbranch⟩ := bind_ok hcells
  split at hbranch
  · exact hyes context hI th cells th' hbranch
  · exact hno context hI th cells th' hbranch

end Leads

/-- The states inside the title. -/
def titleText : State Label := .rawText .text (lit "title").chars

theorem moves_base : ∀ scripting,
    Moves scripting false baseTop .data titleText ∧ Moves scripting false baseHead titleText .data ∧
    Moves scripting false baseHeader .data .data ∧ Moves scripting false baseFooter .data .data ∧
    Moves scripting false baseEnd .data .data := by
  decide +kernel

theorem moves_login : ∀ scripting,
    Moves scripting false loginTitle titleText titleText ∧
    Moves scripting false loginForm .data .data ∧ Moves scripting true loginDevForm .data .data ∧
    Moves scripting false loginEnd .data .data := by
  decide +kernel

theorem moves_signup : ∀ scripting,
    Moves scripting false signupTitle titleText titleText ∧
    Moves scripting false signupContent .data .data := by
  decide +kernel

theorem moves_index : ∀ scripting,
    Moves scripting false indexTitle titleText titleText ∧
    Moves scripting false indexContent .data .data := by
  decide +kernel

theorem moves_partials : ∀ scripting,
    Moves scripting false todoHtml .data .data ∧
    Moves scripting false todoListHtml .data .data := by
  decide +kernel

section Pages
variable {σ : Type} {I : Context → Prop} {helpers : Helpers σ} {scripting dev : Bool}

/-- A page that extends the base is read to its end if its blocks are. -/
theorem leads_base {title body : Template}
    (htitle : Leads I helpers scripting dev title titleText titleText)
    (hbody : Leads I helpers scripting dev body .data .data) :
    Leads I helpers scripting dev (baseHtml title .nothing body .nothing) .data .data := by
  have hnothing : Leads I helpers scripting dev .nothing .data .data := leads_nothing .data
  obtain ⟨htop, hhead, hheader, hfooter, hend⟩ := moves_base scripting
  have hmain := hbody.seq ((hfooter.leads dev).seq (hnothing.seq ((hend.leads dev).seq hnothing)))
  have hrest := hnothing.seq ((hheader.leads dev).seq hmain)
  exact (htop.leads dev).seq (htitle.seq ((hhead.leads dev).seq hrest))

/-- The form of the development login is on the page only where it is enabled. -/
theorem leads_loginContent (hdev : dev = true ∨ ∀ context, I context →
    truthy (context.lookup "dev_login_enabled") = false) :
    Leads I helpers scripting dev loginContent .data .data := by
  have hnothing : Leads I helpers scripting dev .nothing .data .data := leads_nothing .data
  obtain ⟨-, hform, hdevForm, hend⟩ := moves_login scripting
  refine (hform.leads dev).seq (Leads.seq ?_ ((hend.leads dev).seq hnothing))
  rcases hdev with rfl | hfalse
  · exact Leads.ifElse (fun context _ th cells th' hcells =>
      Template.cells_reads hcells hdevForm) hnothing
  · refine Leads.ifElse_no (fun context hI v hv => ?_) hnothing
    cases hv
    exact hfalse context hI

/-- Every template is read from text to text, and its tags are allowed. -/
theorem templateOf_leads {name : String} {t : Template} (h : templateOf name = some t)
    (hdev : dev = true ∨ ∀ context, I context →
      truthy (context.lookup "dev_login_enabled") = false) :
    Leads I helpers scripting dev t .data .data := by
  unfold templateOf at h
  split at h
  · obtain rfl := Option.some.inj h
    obtain ⟨htitle, hcontent⟩ := moves_index scripting
    exact leads_base (htitle.leads dev) (hcontent.leads dev)
  · obtain rfl := Option.some.inj h
    exact leads_base ((moves_login scripting).1.leads dev) (leads_loginContent hdev)
  · obtain rfl := Option.some.inj h
    obtain ⟨htitle, hcontent⟩ := moves_signup scripting
    exact leads_base (htitle.leads dev) (hcontent.leads dev)
  · obtain rfl := Option.some.inj h
    exact (moves_partials scripting).1.leads dev
  · obtain rfl := Option.some.inj h
    exact (moves_partials scripting).2.leads dev
  · cases h

end Pages

end TodoRust.Pages
