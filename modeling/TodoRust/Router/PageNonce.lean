import TodoRust.Middleware.CspNonce
import TodoRust.Pages.Template
import TodoRust.Router.HandlerPages

/-!
# The nonce of a page

The pages that are rendered for a request carry the nonce of the request, which is the one
that the policy on the response admits.
-/

namespace TodoRust.Router
open Lib Domain Storage App Rust Middleware

/-- The text between the quotes of `nonce="{{ csp_nonce }}"`. -/
def nonceAttribute (escape : Char → List Char) (page : Context) : Option (List Char) :=
  (I18n.lookupStr page "csp_nonce").map fun nonce => nonce.toList.flatMap escape

/-- The automatic escaping rewrites no other characters. -/
def EscapesOnly (escape : Char → List Char) : Prop :=
  ∀ c, c ∉ ['<', '>', '&', '"', '\'', '/'] → escape c = [c]

/-- Every page carries the nonce. -/
theorem IsPage.nonce {state : AppState} {nonce template : String} {page : Context}
    (h : IsPage state nonce template page) : I18n.lookupStr page "csp_nonce" = some nonce := by
  cases h with
  | login context next msg h | signup context msg h | index context user todos h
  | list context todos h | todo context todo h =>
      subst h
      rfl

/-! ### The response -/

/-- The escaping leaves a nonce as it is. -/
theorem flatMap_encodeNonce {escape : Char → List Char} (h : EscapesOnly escape)
    (bytes : Vector UInt8 16) :
    (encodeNonce bytes).toList.flatMap escape = (encodeNonce bytes).toList := by
  calc (encodeNonce bytes).toList.flatMap escape
      = (encodeNonce bytes).toList.flatMap fun c => [c] :=
        List.flatMap_congr fun c hc => h c (encodeNonce_plain bytes hc).2.2
    _ = (encodeNonce bytes).toList := List.flatMap_singleton' _

/-- Each response has one policy, and of all inline scripts it admits those with the nonce
that the page of the response carries. -/
theorem page_script_admitted (services : Services) (state : AppState)
    (fluent : I18n.FluentLangneg) (headers : HeaderMap) (request : PageRequest)
    (bytes : Vector UInt8 16) (cs : Nat → Choice) (w : World) {escape : Char → List Char}
    (hescape : EscapesOnly escape) {res : Response}
    (hres : cspNonceMiddleware bytes (fun nonce =>
      ((request.action state fluent headers nonce).run (act services) cs w).1) = .ok res) :
    ∃ line text policy, res.headers.getAll "content-security-policy" = [line] ∧
      line.toStr = some text ∧ Policy.parseLine text.toList = [policy] ∧
      ∀ template page, res.body = .html template page →
        ∀ nonce, Policy.Admits policy nonce ↔ nonceAttribute escape page = some nonce := by
  obtain ⟨line, before, hread, hbefore, rfl⟩ := cspNonceMiddleware_ok bytes hres
  refine ⟨line, csp (encodeNonce bytes), cspDirectives (encodeNonce bytes),
    HeaderMap.getAll_insert .., hread, ?_, ?_⟩
  · rw [toList_csp]
    exact Policy.parseLine_serialize (cspDirectives_wellFormed bytes)
  · intro template page hbody nonce
    have hshown : I18n.lookupStr page "csp_nonce" = some (encodeNonce bytes) :=
      (run_obeys (action_shows state fluent headers _ request) services cs w before hbefore template
        page hbody).nonce
    rw [cspDirectives_admits, nonceAttribute, hshown, Option.map_some, flatMap_encodeNonce hescape,
      Option.some.injEq, eq_comm]

theorem htmlEscape_only : EscapesOnly Pages.htmlEscape := by
  intro c hc
  simp only [List.mem_cons, List.not_mem_nil, or_false, not_or] at hc
  simp [Pages.htmlEscape, hc]

/-- The login form, for bytes that are all zero. -/
theorem page_script_admitted_login : ∃ res line text policy,
    cspNonceMiddleware (Vector.replicate 16 0) (fun nonce =>
      (((PageRequest.loginForm none).action .plain .plain [] nonce).run (act .plain)
        (fun _ => .plain 0 ⟨7⟩) .plain).1) = .ok res ∧
    res.headers.getAll "content-security-policy" = [line] ∧ line.toStr = some text ∧
    Policy.parseLine text.toList = [policy] := by
  obtain ⟨res, hres⟩ : ∃ res, cspNonceMiddleware (Vector.replicate 16 0) (fun nonce =>
      (((PageRequest.loginForm none).action .plain .plain [] nonce).run (act .plain)
        (fun _ => .plain 0 ⟨7⟩) .plain).1) = .ok res := ⟨_, rfl⟩
  obtain ⟨line, text, policy, hline, hread, hpolicy, _⟩ :=
    page_script_admitted .plain .plain .plain [] (.loginForm none) (Vector.replicate 16 0) _ _
      htmlEscape_only hres
  exact ⟨res, line, text, policy, hres, hline, hread, hpolicy⟩

end TodoRust.Router
