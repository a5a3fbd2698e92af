import TodoRust.Middleware.CspNonce
import TodoRust.Pages.Values
import TodoRust.Router.Assembly
import TodoRust.Settings.Config

/-!
# The pages that are sent

What a browser finds in the pages of the handlers: the scripts it runs are those that the
policy of the response admits, and whatever the page lets it request is routed to a
handler.
-/

namespace TodoRust.Pages
open Lib Html App Rust Middleware

/-! ### The tags of a page -/

section Filled
variable {η θ : Type} {g : η → List (Cell θ)}

theorem valueOf_fill (tag : Tag η) (name : List Char) :
    valueOf (tag.fill g) name = (valueOf tag name).map (fillCells g) := by
  unfold valueOf Tag.fill
  induction tag.attributes with
  | nil => rfl
  | cons a attributes ih =>
      rw [List.map_cons, List.lookup_cons, List.lookup_cons, ih]
      cases name == a.1 with
      | true => rfl
      | false => rfl

/-- The value an attribute has is one of those of the tag. -/
theorem mem_of_valueOf {tag : Tag η} {name : List Char} {value : List (Cell η)}
    (h : valueOf tag name = some value) : (name, value) ∈ tag.attributes := by
  obtain ⟨l₁, l₂, hlist, -⟩ := List.lookup_eq_some_iff.mp h
  rw [hlist]
  exact List.mem_append_right _ (List.mem_cons_self ..)

end Filled

theorem labelled_chars_inv {value : List (Cell Slot)} {cs : List Char}
    (h : labelled value = cs.map .char) : value = cs.map .char := by
  induction cs generalizing value with
  | nil =>
      rw [labelled_eq_map] at h
      exact List.map_eq_nil_iff.mp h
  | cons c cs ih =>
      rw [labelled_eq_map] at h
      obtain ⟨cell, rest, rfl, hcell, hrest⟩ := List.map_eq_cons_iff.mp h
      cases cell with
      | char d =>
          cases hcell
          exact congrArg (.char c :: ·) (ih ((labelled_eq_map rest).trans hrest))
      | hole slot => cases hcell

/-- A value of which one part was put in. -/
theorem labelled_hole_inv {value : List (Cell Slot)} {before after : List Char} {label : Label}
    (h : labelled value = before.map .char ++ .hole label :: after.map .char) :
    ∃ slot : Slot, slot.label = label ∧
      value = before.map .char ++ .hole slot :: after.map .char := by
  rw [labelled_eq_map] at h
  obtain ⟨front, back, rfl, hfront, hback⟩ := List.map_eq_append_iff.mp h
  obtain ⟨cell, rest, rfl, hcell, hrest⟩ := List.map_eq_cons_iff.mp hback
  rw [labelled_chars_inv ((labelled_eq_map front).trans hfront),
    labelled_chars_inv ((labelled_eq_map rest).trans hrest)]
  cases cell with
  | char c => cases hcell
  | hole slot => exact ⟨slot, Cell.hole.inj hcell, rfl⟩

section Page
variable {icu : I18n.Icu} (env : Environment icu) {state : AppState} {nonce template : String}
  {page : Context} {cache cache' : I18n.FormatterCache icu} {cells : List (Cell Slot)}

/-- The texts of a tag come from contexts of the page. -/
def Sourced (nonce : String) (dev : Bool) (tag : Tag Slot) : Prop :=
  ∀ a ∈ tag.attributes, ∀ slot, .hole slot ∈ a.2 →
    slot.Evaluated (PageContext nonce dev) env.helpers

/-- The tags a browser reads are allowed ones of the templates, with values of the page. -/
theorem page_tags (scripting : Bool) (h : Router.IsPage state nonce template page)
    (hcells : env.render template page cache = .ok (cells, cache')) :
    ∃ tokens, pageTokens scripting (pageText cells) = some tokens ∧
      ∀ tag, .tag tag ∈ tokens → ∃ own : Tag Slot, tag = own.fill filled ∧
        tagAllowed state.devLoginEnabled (own.fill (relabel Slot.label)) = true ∧
        Sourced env nonce state.devLoginEnabled own := by
  obtain ⟨t, ht, hrendered⟩ := env.render_ok hcells
  have hcontext := pageContext_of_isPage h
  have hdev : state.devLoginEnabled = true ∨ ∀ context,
      PageContext nonce state.devLoginEnabled context →
        truthy (context.lookup "dev_login_enabled") = false := by
    cases hd : state.devLoginEnabled with
    | true => exact Or.inl rfl
    | false => exact Or.inr fun context hc => hc.dev rfl
  have hleads : Leads (PageContext nonce state.devLoginEnabled) env.helpers scripting
      state.devLoginEnabled t .data .data := templateOf_leads ht hdev
  obtain ⟨tokens, hrun, hread, -, hallowed⟩ :=
    (hleads page hcontext cache cells cache' hrendered).pageTokens
  have hholes : ∀ slot, .hole slot ∈ cells →
      slot.Evaluated (PageContext nonce state.devLoginEnabled) env.helpers := fun slot hslot =>
    Template.cells_evaluated (pageContext_itemsKeep ht) hcontext hrendered hslot
  refine ⟨fillTokens filled tokens, hread, fun tag htag => ?_⟩
  obtain ⟨own, hown, rfl⟩ := mem_fillTokens htag
  refine ⟨own, rfl, ?_, run_holes hholes hrun (.tag own) hown⟩
  exact hallowed (.tag (own.fill (relabel Slot.label)))
    (List.mem_flatMap.mpr ⟨.tag own, hown, List.mem_singleton_self _⟩)

end Page

/-! ### Scripts -/

/-- The tag runs no script, or one that the policy admits: an asset of the own origin, or
one with the nonce. -/
def ScriptAdmitted (policy : List Policy.Directive) (assets : StaticFiles.Assets)
    (tag : Tag Empty) : Prop :=
  tag.attributes.any isHandler = false ∧ (isScript tag = true →
    (∃ logical, readAttribute tag (lit "src").chars = some (StaticFiles.asset assets logical) ∧
      Policy.AdmitsOwn policy) ∨
    (readAttribute tag (lit "src").chars = none ∧
      ∃ nonce, readAttribute tag (lit "nonce").chars = some nonce ∧
        Policy.Admits policy nonce.toList))

section Scripts
variable {icu : I18n.Icu} {env : Environment icu} {dev : Bool} {nonce : String} {tag : Tag Slot}

/-- An attribute that is one text that was put in. -/
theorem readAttribute_hole {name : List Char} {label : Label}
    (h : valueOf (tag.fill (relabel Slot.label)) name = some [.hole label]) :
    ∃ (slot : Slot) (a : List Char × List (Cell Slot)), a ∈ tag.attributes ∧ .hole slot ∈ a.2 ∧
      slot.label = label ∧ readAttribute (tag.fill filled) name = some slot.value := by
  rw [valueOf_fill] at h
  obtain ⟨value, hvalue, hlabelled⟩ := Option.map_eq_some_iff.mp h
  have hhole : labelled value = [].map .char ++ .hole label :: [].map .char := hlabelled
  obtain ⟨slot, hlabel, rfl⟩ := labelled_hole_inv hhole
  refine ⟨slot, (name, _), mem_of_valueOf hvalue, List.mem_cons_self .., hlabel, ?_⟩
  rw [readAttribute, valueOf_fill, hvalue, Option.map_some, Option.map_some,
    readValue_filled (by simp)]
  simp [reading]

theorem scriptAdmitted_fill (hallowed : tagAllowed dev (tag.fill (relabel Slot.label)) = true)
    (hsourced : Sourced env nonce dev tag) {policy : List Policy.Directive}
    (hown : Policy.AdmitsOwn policy) (hnonce : Policy.Admits policy nonce.toList) :
    ScriptAdmitted policy env.assets (tag.fill filled) := by
  simp only [tagAllowed, Bool.and_eq_true, Bool.or_eq_true, Bool.not_eq_true'] at hallowed
  obtain ⟨⟨-, hscript⟩, hhandler⟩ := hallowed
  have hnames (g : Slot → List (Cell Empty)) :
      (tag.fill g).attributes.any isHandler = tag.attributes.any isHandler :=
    List.any_map ..
  have hnames' : (tag.fill (relabel Slot.label)).attributes.any isHandler =
      tag.attributes.any isHandler := List.any_map ..
  refine ⟨(hnames filled).trans (hnames'.symm.trans hhandler), fun his => ?_⟩
  have hscript : scriptAllowed (tag.fill (relabel Slot.label)) = true :=
    hscript.resolve_left fun hno => by
      rw [show isScript (tag.fill filled) = isScript (tag.fill (relabel Slot.label)) from rfl,
        hno] at his
      cases his
  unfold scriptAllowed at hscript
  split at hscript
  · rename_i logical hsrc
    obtain ⟨slot, a, ha, hslot, hlabel, hread⟩ := readAttribute_hole hsrc
    rw [(hsourced a ha slot hslot).asset hlabel] at hread
    exact Or.inl ⟨logical, hread, hown⟩
  · cases hscript
  · rename_i hsrc
    obtain ⟨slot, a, ha, hslot, hlabel, hread⟩ := readAttribute_hole (of_decide_eq_true hscript)
    rw [(hsourced a ha slot hslot).cspNonce hlabel] at hread
    refine Or.inr ⟨?_, nonce, hread, hnonce⟩
    rw [valueOf_fill, Option.map_eq_none_iff] at hsrc
    rw [readAttribute, valueOf_fill, hsrc]
    rfl

end Scripts

/-- Every script of every page is one that the policy on its response lets run, with
scripting or without, whatever the page is rendered from; and no attribute holds a script
of its own. -/
theorem page_scripts_admitted (services : Services) (state : AppState)
    (fluent : I18n.FluentLangneg) (headers : HeaderMap) (request : Router.PageRequest)
    (bytes : Vector UInt8 16) (cs : Nat → Choice) (w : World) {res : Response}
    (hres : cspNonceMiddleware bytes (fun nonce =>
      ((request.action state fluent headers nonce).run (act services) cs w).1) = .ok res)
    {template : String} {page : Context} (hbody : res.body = .html template page)
    {icu : I18n.Icu} (env : Environment icu) {cache cache' : I18n.FormatterCache icu}
    {cells : List (Cell Slot)} (hcells : env.render template page cache = .ok (cells, cache'))
    (scripting : Bool) :
    ∃ line text policy tokens, res.headers.getAll "content-security-policy" = [line] ∧
      line.toStr = some text ∧ Policy.parseLine text.toList = [policy] ∧
      pageTokens scripting (pageText cells) = some tokens ∧
      ∀ tag, .tag tag ∈ tokens → ScriptAdmitted policy env.assets tag := by
  obtain ⟨line, before, hread, hbefore, rfl⟩ := cspNonceMiddleware_ok bytes hres
  have hpage : Router.IsPage state (encodeNonce bytes) template page :=
    Router.run_obeys (Router.action_shows state fluent headers _ request) services cs w before
      hbefore template page hbody
  obtain ⟨tokens, htokens, htags⟩ := page_tags env scripting hpage hcells
  have hpolicy : Policy.parseLine (csp (encodeNonce bytes)).toList =
      [cspDirectives (encodeNonce bytes)] := by
    rw [toList_csp]
    exact Policy.parseLine_serialize (cspDirectives_wellFormed bytes)
  refine ⟨line, csp (encodeNonce bytes), cspDirectives (encodeNonce bytes), tokens,
    HeaderMap.getAll_insert .., hread, hpolicy, htokens, ?_⟩
  intro tag htag
  obtain ⟨own, rfl, hallowed, hsourced⟩ := htags tag htag
  exact scriptAdmitted_fill hallowed hsourced (cspDirectives_admitsOwn _)
    ((cspDirectives_admits bytes).mpr rfl)

/-- What the login form is rendered from. -/
def loginPage (nonce : String) : Context :=
  [("next", .none), ("error", .str ""), ("dev_login_enabled", .bool false)] ++
    baseContext (i18nMiddleware .plain .plain [] nonce)

/-- The bytes of a nonce, all zero. -/
def zeroBytes : Vector UInt8 16 := Vector.replicate 16 0

/-- What the handler of the login form ends in. -/
def loginEnded (nonce : String) : Except String Response :=
  (((Router.PageRequest.loginForm none).action .plain .plain [] nonce).run (act .plain)
    (fun _ => .plain 0 ⟨7⟩) .plain).1

theorem loginEnded_page (nonce : String) :
    ∃ res, loginEnded nonce = .ok res ∧ res.body = .html "login.html" (loginPage nonce) :=
  ⟨_, rfl, rfl⟩

/-- A response with the login form. -/
def loginReply (bytes : Vector UInt8 16) : Except String Response :=
  cspNonceMiddleware bytes loginEnded

theorem loginReply_page (bytes : Vector UInt8 16) :
    ∃ res, loginReply bytes = .ok res ∧
      res.body = .html "login.html" (loginPage (encodeNonce bytes)) := by
  obtain ⟨form, hform, hpage⟩ := loginEnded_page (encodeNonce bytes)
  simp only [loginReply, cspNonceMiddleware, hform, Except.map]
  cases HeaderValue.fromStr (csp (encodeNonce bytes)) with
  | none => exact ⟨_, rfl, hpage⟩
  | some value => exact ⟨_, rfl, hpage⟩

theorem render_loginPage : ∃ cells cache,
    Environment.plain.render "login.html" (loginPage (encodeNonce zeroBytes)) [] =
      .ok (cells, cache) := by
  have hok : (Environment.plain.render "login.html" (loginPage (encodeNonce zeroBytes))
      []).toOption.isSome = true := by
    decide +kernel
  cases hrender : Environment.plain.render "login.html" (loginPage (encodeNonce zeroBytes)) [] with
  | error e =>
      rw [hrender] at hok
      cases hok
  | ok r => exact ⟨r.1, r.2, rfl⟩

/-- The login form in a browser with scripting. -/
theorem page_scripts_admitted_login : ∃ res cells cache line text policy tokens,
    loginReply zeroBytes = .ok res ∧
    res.body = .html "login.html" (loginPage (encodeNonce zeroBytes)) ∧
    Environment.plain.render "login.html" (loginPage (encodeNonce zeroBytes)) [] =
      .ok (cells, cache) ∧
    pageTokens true (pageText cells) = some tokens ∧
    res.headers.getAll "content-security-policy" = [line] ∧ line.toStr = some text ∧
    Policy.parseLine text.toList = [policy] ∧
    ∀ tag, .tag tag ∈ tokens → ScriptAdmitted policy Environment.plain.assets tag := by
  obtain ⟨res, hres, hbody⟩ := loginReply_page zeroBytes
  obtain ⟨cells, cache, hcells⟩ := render_loginPage
  obtain ⟨line, text, policy, tokens, hline, hread, hpolicy, htokens, hscripts⟩ :=
    page_scripts_admitted .plain .plain .plain [] (.loginForm none) zeroBytes _ _ hres hbody .plain
      hcells true
  exact ⟨res, cells, cache, line, text, policy, tokens, hres, hbody, hcells, htokens, hline,
    hread, hpolicy, hscripts⟩

/-! ### Requests -/

section Paths

/-- The path of some segments. -/
def pathOf (segments : List (List Char)) : List Char := segments.flatMap ('/' :: ·)

theorem pathOf_eq_intercalate (segments : List (List Char)) :
    pathOf segments = ['/'].intercalate ([] :: segments) := by
  induction segments with
  | nil => rfl
  | cons segment segments ih =>
      cases segments with
      | nil => simp [pathOf, List.intercalate_cons_cons, List.intercalate_singleton]
      | cons next rest =>
          rw [List.intercalate_cons_cons, List.nil_append] at ih
          rw [pathOf, List.flatMap_cons, ← pathOf, ih]
          simp [List.intercalate_cons_cons]

/-- Routing takes a path apart into its segments. -/
theorem matchedPath_pathOf (debugAssertions : Bool) {segments : List (List Char)}
    (h : ∀ segment ∈ segments, '/' ∉ segment) :
    matchedPath debugAssertions (String.ofList (pathOf segments)) =
      (routePatterns debugAssertions).find? fun pattern =>
        matchSegments (split pattern.toList '/') ([] :: segments) := by
  have hsplit : split (pathOf segments) '/' = [] :: segments := by
    rw [pathOf_eq_intercalate]
    refine List.splitOn_intercalate '/' ?_ (by simp)
    rw [List.forall_mem_cons]
    exact ⟨List.not_mem_nil, h⟩
  rw [matchedPath, String.toList_ofList, hsplit]

theorem isStatic_todo (rest : List (List Char)) :
    Router.isStatic (String.ofList (pathOf ("todos".toList :: rest))) = false := by
  have hpath : pathOf ("todos".toList :: rest) = '/' :: 't' :: "odos".toList ++ pathOf rest := rfl
  have hlist : (String.ofList (pathOf ("todos".toList :: rest))).toList = _ :=
    String.toList_ofList.trans hpath
  have hne : String.ofList (pathOf ("todos".toList :: rest)) ≠ "/static" := by
    intro h
    rw [h] at hlist
    cases hlist
  have hfront : startsWith (String.ofList (pathOf ("todos".toList :: rest))) "/static/".toList =
      false := by
    rw [startsWith, hlist]
    rfl
  rw [Router.isStatic, hfront, decide_eq_false hne]
  rfl

variable (debugAssertions : Bool) {id : List Char} (hslash : '/' ∉ id) (hne : id ≠ [])
include hslash hne

theorem dispatch_toggle :
    Router.dispatch debugAssertions "POST"
      (String.ofList (pathOf ["todos".toList, id, "toggle".toList])) = .endpoint .toggle := by
  have hmatched : matchedPath debugAssertions
      (String.ofList (pathOf ["todos".toList, id, "toggle".toList])) =
        some "/todos/:id/toggle" := by
    rw [matchedPath_pathOf]
    · obtain ⟨c, cs, rfl⟩ := List.exists_cons_of_ne_nil hne
      rfl
    · simp only [List.forall_mem_cons]
      exact ⟨by decide, hslash, by decide, nofun⟩
  rw [Router.dispatch, isStatic_todo, hmatched]
  cases debugAssertions with
  | false => rfl
  | true => rfl

theorem dispatch_delete :
    Router.dispatch debugAssertions "DELETE" (String.ofList (pathOf ["todos".toList, id])) =
      .endpoint .delete := by
  have hmatched : matchedPath debugAssertions (String.ofList (pathOf ["todos".toList, id])) =
      some "/todos/:id" := by
    rw [matchedPath_pathOf]
    · obtain ⟨c, cs, rfl⟩ := List.exists_cons_of_ne_nil hne
      rfl
    · simp only [List.forall_mem_cons]
      exact ⟨by decide, hslash, nofun⟩
  rw [Router.dispatch, isStatic_todo, hmatched]
  cases debugAssertions with
  | false => rfl
  | true => rfl

end Paths

section Routed
variable (debugAssertions : Bool)

def isEndpoint : Router.Dispatch → Bool
  | .endpoint _ => true
  | _ => false

/-- A browser that follows the address gets to a handler. -/
def Routed (method address : String) : Prop :=
  ∃ endpoint, Router.dispatch debugAssertions method address = .endpoint endpoint

theorem routed_of_isEndpoint {method address : String}
    (h : isEndpoint (Router.dispatch debugAssertions method address) = true) :
    Routed debugAssertions method address := by
  unfold Routed
  cases hdispatch : Router.dispatch debugAssertions method address with
  | endpoint endpoint => exact ⟨endpoint, rfl⟩
  | static | methodNotAllowed | fallback =>
      rw [hdispatch] at h
      cases h

theorem routed_fixed {dev : Bool} (hdev : dev = true → debugAssertions = true)
    {target : String × Literal} (h : target ∈ fixedTargets dev) :
    Routed debugAssertions target.1 (String.ofList target.2.chars) := by
  have hall : ∀ dev debugAssertions : Bool, (dev = true → debugAssertions = true) →
      ∀ target ∈ fixedTargets dev,
        isEndpoint (Router.dispatch debugAssertions target.1 (String.ofList target.2.chars)) =
          true := by
    decide +kernel
  exact routed_of_isEndpoint debugAssertions (hall dev debugAssertions hdev target h)

theorem routed_toggle (id : Domain.Uuid) :
    Routed debugAssertions "POST"
      (String.ofList ("/todos/".toList ++ id.toString.toList ++ "/toggle".toList)) := by
  have hpath := dispatch_toggle debugAssertions (fun h => id.toString_ne_slash h rfl)
    id.toString_ne_nil
  exact ⟨.toggle, by simpa [pathOf] using hpath⟩

theorem routed_delete (id : Domain.Uuid) :
    Routed debugAssertions "DELETE" (String.ofList ("/todos/".toList ++ id.toString.toList)) := by
  have hpath := dispatch_delete debugAssertions (fun h => id.toString_ne_slash h rfl)
    id.toString_ne_nil
  exact ⟨.delete, by simpa [pathOf] using hpath⟩

/-- An address of the templates, with the values that were put in. -/
theorem routed_target {icu : I18n.Icu} {env : Environment icu} {nonce : String} {dev : Bool}
    (hdev : dev = true → debugAssertions = true) {method : String} {value : List (Cell Slot)}
    (h : (method, labelled value) ∈ targets dev)
    (hsourced : ∀ slot, .hole slot ∈ value →
      slot.Evaluated (PageContext nonce dev) env.helpers) :
    Routed debugAssertions method (readValue (fillCells filled value)) := by
  have hrow {action : Literal} (haction : '&' ∉ action.chars)
      (hlabelled : labelled value = todoTarget action) : ∃ t : Domain.Todo,
      readValue (fillCells filled value) =
        String.ofList ("/todos/".toList ++ t.id.uuid.toString.toList ++ action.chars) := by
    obtain ⟨slot, hlabel, rfl⟩ := labelled_hole_inv hlabelled
    obtain ⟨t, ht⟩ := (hsourced slot (by simp)).todoId hlabel
    refine ⟨t, ?_⟩
    rw [readValue_filled (by simpa [lit] using haction)]
    simp [reading, ht, lit, List.flatMap_map]
  simp only [targets, List.mem_append, List.mem_cons, List.not_mem_nil, or_false,
    List.mem_map, Prod.mk.injEq] at h
  rcases h with (⟨rfl, htoggle⟩ | ⟨rfl, hdelete⟩) | ⟨target, htarget, rfl, hfixed⟩
  · obtain ⟨t, hread⟩ := hrow (by decide) htoggle
    rw [hread]
    exact routed_toggle debugAssertions t.id.uuid
  · obtain ⟨t, hread⟩ := hrow (by decide) hdelete
    rw [hread, show (lit "").chars = [] from rfl, List.append_nil]
    exact routed_delete debugAssertions t.id.uuid
  · have hclear : ∀ dev, ∀ target ∈ fixedTargets dev, '&' ∉ target.2.chars := by decide
    rw [labelled_chars_inv hfixed.symm, readValue_filled (by simpa using hclear dev target htarget)]
    have hreading : reading (target.2.chars.map .char) = target.2.chars := by
      simp [reading, List.flatMap_map]
    rw [hreading]
    exact routed_fixed debugAssertions hdev htarget

end Routed

section Requests
variable {tag : Tag Slot} {θ : Type}

theorem formMethod_fill (h : methodFixed (tag.fill (relabel Slot.label)) = true)
    (g : Slot → List (Cell θ)) : formMethod (tag.fill g) = formMethod tag := by
  unfold methodFixed at h
  rw [valueOf_fill] at h
  unfold formMethod
  rw [valueOf_fill]
  cases hvalue : valueOf tag (lit "method").chars with
  | none => rfl
  | some value =>
      rw [hvalue] at h
      obtain rfl := labelled_chars_inv (of_decide_eq_true h)
      rfl

theorem requestOf_fill {g : Slot → List (Cell θ)}
    (hmethod : formMethod (tag.fill g) = formMethod tag) (a : List Char × List (Cell Slot)) :
    requestOf (tag.fill g) (a.1, fillCells g a.2) =
      (requestOf tag a).map fun request => (request.1, fillCells g request.2) := by
  have hname : (tag.fill g).name = tag.name := rfl
  unfold requestOf
  rw [hmethod, hname]
  split_ifs
  all_goals rfl

/-- The requests of a tag are those of its template, with what was put in. -/
theorem requests_fill {g : Slot → List (Cell θ)}
    (hmethod : formMethod (tag.fill g) = formMethod tag) :
    requests (tag.fill g) =
      (requests tag).map fun request => (request.1, fillCells g request.2) := by
  unfold requests
  change (if tag.closing then _ else _) = _
  cases tag.closing with
  | true => rfl
  | false =>
      simp only [Bool.false_eq_true, if_false, Tag.fill, List.filterMap_map, List.map_filterMap]
      exact List.filterMap_congr fun a _ => requestOf_fill hmethod a

theorem mem_of_requests {request : String × List (Cell Slot)} (h : request ∈ requests tag) :
    ∃ a ∈ tag.attributes, a.2 = request.2 := by
  unfold requests at h
  split at h
  · cases h
  · obtain ⟨a, ha, hrequest⟩ := List.mem_filterMap.mp h
    refine ⟨a, ha, ?_⟩
    unfold requestOf at hrequest
    split_ifs at hrequest
    all_goals
      cases hrequest
      rfl

end Requests

/-- Whatever a page lets a browser request, by a link, a form or a fragment of the page, a
handler is there for it, also for each row of a list of todos. -/
theorem page_requests_routed (services : Services) (state : AppState)
    (fluent : I18n.FluentLangneg) (headers : HeaderMap) (nonce : String)
    (request : Router.PageRequest) (cs : Nat → Choice) (w : World) {res : Response}
    (hres : ((request.action state fluent headers nonce).run (act services) cs w).1 = .ok res)
    {template : String} {page : Context} (hbody : res.body = .html template page)
    {icu : I18n.Icu} (env : Environment icu) {cache cache' : I18n.FormatterCache icu}
    {cells : List (Cell Slot)} (hcells : env.render template page cache = .ok (cells, cache'))
    (scripting debugAssertions : Bool) (dev : Settings.DevConfig)
    (hdev : state.devLoginEnabled = (dev.enabledEmail debugAssertions).isSome) :
    ∃ tokens, pageTokens scripting (pageText cells) = some tokens ∧
      ∀ tag, .tag tag ∈ tokens → ∀ r ∈ requests tag,
        Routed debugAssertions r.1 (readValue r.2) := by
  have hpage : Router.IsPage state nonce template page :=
    Router.run_obeys (Router.action_shows state fluent headers _ request) services cs w res hres
      template page hbody
  have hdebug : state.devLoginEnabled = true → debugAssertions = true := by
    intro henabled
    cases debugAssertions with
    | true => rfl
    | false => exact absurd (hdev.symm.trans henabled) (by simp [Settings.DevConfig.enabledEmail])
  obtain ⟨tokens, htokens, htags⟩ := page_tags env scripting hpage hcells
  refine ⟨tokens, htokens, fun tag htag r hr => ?_⟩
  obtain ⟨own, rfl, hallowed, hsourced⟩ := htags tag htag
  simp only [tagAllowed, Bool.and_eq_true, List.all_eq_true] at hallowed
  obtain ⟨⟨⟨hrequests, hmethod⟩, -⟩, -⟩ := hallowed
  rw [requests_fill (formMethod_fill hmethod _)] at hr hrequests
  obtain ⟨ownRequest, hown, rfl⟩ := List.mem_map.mp hr
  have htarget := hrequests _ (List.mem_map_of_mem hown)
  obtain ⟨a, ha, hvalue⟩ := mem_of_requests hown
  exact routed_target debugAssertions hdebug (List.contains_iff_mem.mp htarget)
    (hvalue ▸ hsourced a ha)

/-- The login form of a release build. -/
theorem page_requests_routed_login : ∃ res cells cache tokens,
    loginEnded (encodeNonce zeroBytes) = .ok res ∧
    res.body = .html "login.html" (loginPage (encodeNonce zeroBytes)) ∧
    Environment.plain.render "login.html" (loginPage (encodeNonce zeroBytes)) [] =
      .ok (cells, cache) ∧
    pageTokens false (pageText cells) = some tokens ∧
    ∀ tag, .tag tag ∈ tokens → ∀ r ∈ requests tag, Routed false r.1 (readValue r.2) := by
  obtain ⟨res, hres, hbody⟩ := loginEnded_page (encodeNonce zeroBytes)
  obtain ⟨cells, cache, hcells⟩ := render_loginPage
  obtain ⟨tokens, htokens, hrouted⟩ :=
    page_requests_routed .plain .plain .plain [] (encodeNonce zeroBytes) (.loginForm none) _ _ hres
      hbody .plain hcells false false Settings.Config.default.dev rfl
  exact ⟨res, cells, cache, tokens, hres, hbody, hcells, htokens, hrouted⟩

end TodoRust.Pages
