import TodoRust.App.Error
import TodoRust.Lib.Base64
import TodoRust.Lib.Policy

/-!
# The nonce and its policy

Each request to the API gets a nonce of its own. The policy on its response is read back
as it was meant, whatever bytes were drawn, and admits that nonce and no other.
-/

namespace TodoRust.Middleware
open Lib App Rust

/-! ### The middleware -/

/-- `URL_SAFE_NO_PAD.encode(bytes)` -/
def encodeNonce (bytes : Vector UInt8 16) : String := Base64.urlSafe.encode bytes.toList

/-- The text of the header. -/
def csp (nonce : String) : String :=
  "default-src 'self'; script-src 'self' 'unsafe-eval' 'nonce-" ++ nonce ++
    "'; style-src 'self' 'unsafe-inline'; font-src 'self'; img-src 'self' data:; connect-src 'self'"

/-- `csp_nonce_middleware`, with the bytes it has drawn. -/
def cspNonceMiddleware (bytes : Vector UInt8 16) (next : String → Except String Response) :
    Except String Response :=
  let nonce := encodeNonce bytes
  (next nonce).map fun response =>
    match HeaderValue.fromStr (csp nonce) with
    | some value =>
        { response with headers := response.headers.insert "content-security-policy" value }
    | none => response

/-! ### The policy -/

section Policy
variable (bytes : Vector UInt8 16)

/-- The directives of the policy. -/
def cspDirectives (nonce : String) : List Policy.Directive :=
  [⟨"default-src".toList, ["'self'".toList]⟩,
    ⟨"script-src".toList, ["'self'".toList, "'unsafe-eval'".toList,
      Policy.nonceSource nonce.toList]⟩,
    ⟨"style-src".toList, ["'self'".toList, "'unsafe-inline'".toList]⟩,
    ⟨"font-src".toList, ["'self'".toList]⟩,
    ⟨"img-src".toList, ["'self'".toList, "data:".toList]⟩,
    ⟨"connect-src".toList, ["'self'".toList]⟩]

theorem toList_csp (nonce : String) :
    (csp nonce).toList = Policy.serialize (cspDirectives nonce) := by
  have hfront : "default-src 'self'; script-src 'self' 'unsafe-eval' 'nonce-".toList =
      [' '].intercalate ["default-src".toList, "'self'".toList] ++ [';', ' '] ++
        ([' '].intercalate ["script-src".toList, "'self'".toList, "'unsafe-eval'".toList] ++
          [' '] ++ "'nonce-".toList) := by
    decide +kernel
  have hback : String.toList
      "'; style-src 'self' 'unsafe-inline'; font-src 'self'; img-src 'self' data:; connect-src 'self'" =
      ['\''] ++ [';', ' '] ++ Policy.serialize ((cspDirectives "").drop 2) := by
    decide +kernel
  unfold csp
  rw [String.toList_append, String.toList_append, hfront, hback]
  unfold cspDirectives Policy.nonceSource
  simp only [Policy.serialize, Policy.Directive.serialize, Policy.Directive.words, List.map_cons,
    List.intercalate_cons_cons, List.intercalate_singleton, List.append_assoc, List.drop_succ_cons,
    List.drop_zero]

/-- The characters of a nonce that matter to a policy, a header or a page. -/
theorem encodeNonce_plain {c : Char} (h : c ∈ (encodeNonce bytes).toList) :
    isVisibleChar c = true ∧ (Policy.isBlank c = false ∧ c ≠ ';' ∧ c ≠ ',') ∧
      c ∉ ['<', '>', '&', '"', '\'', '/'] := by
  have hall : (Base64.urlSafe.chars.all fun c => isVisibleChar c && (!Policy.isBlank c &&
      (c != ';' && c != ',')) && !(['<', '>', '&', '"', '\'', '/'].contains c)) = true := by
    decide +kernel
  have hc := List.all_eq_true.mp hall c (Base64.urlSafe.mem_of_mem_encode h)
  simp only [Bool.and_eq_true, Bool.not_eq_true', bne_iff_ne] at hc
  obtain ⟨⟨hvisible, hblank, hsemi, hcomma⟩, hescaped⟩ := hc
  refine ⟨hvisible, ⟨hblank, hsemi, hcomma⟩, fun hmem => ?_⟩
  rw [List.contains_iff_mem.mpr hmem] at hescaped
  cases hescaped

theorem encodeNonce_ne_nil : (encodeNonce bytes).toList ≠ [] := by
  intro h
  have hlength := Base64.urlSafe.length_encode bytes.toList
  rw [show (Base64.urlSafe.encode bytes.toList).toList = [] from h, Vector.length_toList] at hlength
  simp at hlength

theorem encodeNonce_injective : Function.Injective encodeNonce := by
  intro bytes bytes' h
  exact Vector.toList_inj.mp (Base64.urlSafe.encode_injective h)

theorem cspDirectives_wellFormed : Policy.WellFormed (cspDirectives (encodeNonce bytes)) := by
  have hfixed : ∀ word : List Char, word ≠ [] →
      (word.all fun c => !Policy.isBlank c && (c != ';' && c != ',')) = true →
      Policy.IsWord word := by
    intro word hne hword
    refine ⟨hne, fun c hc => ?_⟩
    have hplain := List.all_eq_true.mp hword c hc
    simpa using hplain
  have hnonce : Policy.IsWord (Policy.nonceSource (encodeNonce bytes).toList) := by
    unfold Policy.nonceSource
    refine ⟨by simp, fun c hc => ?_⟩
    rw [List.mem_append, List.mem_append] at hc
    rcases hc with (hfront | hmem) | hquote
    · have hword : Policy.IsWord "'nonce-".toList := hfixed _ (by decide) (by decide)
      exact hword.2 c hfront
    · exact (encodeNonce_plain bytes hmem).2.1
    · have hword : Policy.IsWord ['\''] := hfixed _ (by decide) (by decide)
      exact hword.2 c hquote
  simp only [Policy.WellFormed, cspDirectives, Policy.Directive.words, List.forall_mem_cons]
  refine ⟨⟨?_, ?_, nofun⟩, ⟨?_, ?_, ?_, hnonce, nofun⟩, ⟨?_, ?_, ?_, nofun⟩, ⟨?_, ?_, nofun⟩,
    ⟨?_, ?_, ?_, nofun⟩, ⟨?_, ?_, nofun⟩, nofun⟩
  all_goals exact hfixed _ (by decide) (by decide)

/-- Of all nonces, the policy admits its own. -/
theorem cspDirectives_admits {nonce : List Char} :
    Policy.Admits (cspDirectives (encodeNonce bytes)) nonce ↔
      nonce = (encodeNonce bytes).toList := by
  have hsources : Policy.sourcesOf (cspDirectives (encodeNonce bytes)) "script-src".toList =
      some ["'self'".toList, "'unsafe-eval'".toList,
        Policy.nonceSource (encodeNonce bytes).toList] := rfl
  constructor
  · rintro ⟨_, sources, hfound, hmem⟩
    obtain rfl := Option.some.inj (hsources.symm.trans hfound)
    have hself : Policy.nonceSource nonce ≠ "'self'".toList := by
      intro h
      cases congrArg (fun l => l[1]?) h
    have heval : Policy.nonceSource nonce ≠ "'unsafe-eval'".toList := by
      intro h
      cases congrArg (fun l => l[1]?) h
    simp only [List.mem_cons, List.not_mem_nil, or_false, hself, heval, false_or] at hmem
    exact Policy.nonceSource_injective hmem
  · rintro rfl
    refine ⟨encodeNonce_ne_nil bytes, _, hsources, ?_⟩
    simp

theorem cspDirectives_admitsOwn (nonce : String) : Policy.AdmitsOwn (cspDirectives nonce) :=
  ⟨_, rfl, List.mem_cons_self ..⟩

/-- The text is a header value, which reads as the text. -/
theorem csp_toStr :
    (HeaderValue.fromStr (csp (encodeNonce bytes))).bind HeaderValue.toStr =
      some (csp (encodeNonce bytes)) := by
  apply HeaderValue.toStr_fromStr
  have hnonce : (encodeNonce bytes).toList.all isVisibleChar = true := by
    rw [List.all_eq_true]
    exact fun c hc => (encodeNonce_plain bytes hc).1
  unfold csp
  simp only [String.toList_append, List.all_append, hnonce, Bool.and_true]
  decide +kernel

/-- A response comes with the policy of its nonce, and is otherwise what it was. -/
theorem cspNonceMiddleware_ok {next : String → Except String Response} {res : Response}
    (h : cspNonceMiddleware bytes next = .ok res) :
    ∃ line before, line.toStr = some (csp (encodeNonce bytes)) ∧
      next (encodeNonce bytes) = .ok before ∧
      res = { before with headers := before.headers.insert "content-security-policy" line } := by
  obtain ⟨line, hline, hread⟩ := Option.bind_eq_some_iff.mp (csp_toStr bytes)
  unfold cspNonceMiddleware at h
  cases hnext : next (encodeNonce bytes) with
  | error message =>
      simp only [hnext] at h
      cases h
  | ok before =>
      simp only [hnext, hline] at h
      exact ⟨line, before, hread, rfl, (Except.ok.inj h).symm⟩

end Policy

/-- A policy is read as the six directives it was written from, and a nonce is admitted by
the policy of the bytes it was made of and by no other. -/
theorem csp_separates (bytes bytes' : Vector UInt8 16) :
    Policy.parseLine (csp (encodeNonce bytes)).toList = [cspDirectives (encodeNonce bytes)] ∧
      (Policy.Admits (cspDirectives (encodeNonce bytes)) (encodeNonce bytes').toList ↔
        bytes' = bytes) := by
  constructor
  · rw [toList_csp]
    exact Policy.parseLine_serialize (cspDirectives_wellFormed bytes)
  · rw [cspDirectives_admits, String.toList_inj]
    exact encodeNonce_injective.eq_iff

end TodoRust.Middleware
