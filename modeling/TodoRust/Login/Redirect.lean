import TodoRust.App.Routes

/-!
# The redirect after a login

A successful login ends in `redirect_after_form`, which writes the target into
a header: `HX-Redirect` for htmx, `Location` otherwise. Both need the target to
be a header value, and neither the form nor `safe_next` asks for that.
-/

namespace TodoRust.Login
open Lib Domain Storage App Rust

/-- The target of a login: the submitted path if `safe_next` honors it. -/
def target (next : Option String) : String := (safeNext next).getD "/"

/-- The handler answers, and the answer carries exactly this target: in
`HX-Redirect` with a 200 for htmx, in `Location` with a 303 otherwise. -/
def RedirectsTo (headers : HeaderMap) (target : String) (done : Except Halt Response) : Prop :=
  ∃ response, done = .ok response ∧
    if (headers.get "hx-request").isSome then
      response.status = StatusCode.ok ∧
        (response.headers.get "hx-redirect").map HeaderValue.bytes = some (asBytes target)
    else
      response.status = StatusCode.seeOther ∧
        (response.headers.get "location").map HeaderValue.bytes = some (asBytes target)

/-- A submitted target no header has to refuse: absent, not a path of the kind
`safe_next` honors, or free of control characters other than tab. -/
def NoControl (next : Option String) : Prop :=
  ∀ s ∈ next, startsWith s ['/'] = true → startsWith s ['/', '/'] = false →
    ∀ c ∈ s.toList, isHeaderControl c = false

theorem headerValue_isSome_iff (s : String) :
    (HeaderValue.fromStr s).isSome ↔ ∀ c ∈ s.toList, isHeaderControl c = false := by
  rw [Option.isSome_iff_ne_none, Ne, HeaderValue.fromStr_eq_none_iff]
  simp

/-- The target is a header value exactly when the submitted text has no control
character, the fallback `/` always being one. -/
theorem target_isHeader_iff (next : Option String) :
    (HeaderValue.fromStr (target next)).isSome ↔ NoControl next := by
  have hroot : (HeaderValue.fromStr "/").isSome := by decide
  cases next with
  | none => simpa [target, safeNext, NoControl] using hroot
  | some s =>
      cases h1 : startsWith s ['/'] with
      | false => simpa [target, safeNext, NoControl, h1] using hroot
      | true =>
          cases h2 : startsWith s ['/', '/'] with
          | true => simpa [target, safeNext, NoControl, h1, h2] using hroot
          | false =>
              have htarget : target (some s) = s := by simp [target, safeNext, h1, h2]
              rw [htarget, headerValue_isSome_iff]
              simp [NoControl, h1, h2]

/-- `redirect_after_form` carries its target exactly when a header can. -/
theorem redirectAfterForm_run (headers : HeaderMap) (target : String) :
    ∃ done, (redirectAfterForm headers target).run = .ret done ∧
      (RedirectsTo headers target done ↔ (HeaderValue.fromStr target).isSome) := by
  cases hx : (headers.get "hx-request").isSome with
  | true =>
      cases hv : HeaderValue.fromStr target with
      | none =>
          -- the htmx branch drops the header
          refine ⟨.ok (StatusCode.intoResponse StatusCode.ok), ?_, ?_⟩
          · simp only [redirectAfterForm, hx, hv, if_true]
            rfl
          · have hget : HeaderMap.get [] "hx-redirect" = none := rfl
            simp [RedirectsTo, hx, StatusCode.intoResponse, hget]
      | some v =>
          have hget := HeaderMap.get_insert [] "hx-redirect" v
          refine ⟨.ok ⟨StatusCode.ok, HeaderMap.insert [] "hx-redirect" v, .empty⟩, ?_, ?_⟩
          · simp only [redirectAfterForm, hx, hv, if_true]
            rfl
          · simp [RedirectsTo, hx, hget, HeaderValue.fromStr_bytes hv]
  | false =>
      cases hv : HeaderValue.fromStr target with
      | none =>
          -- the plain branch panics
          refine ⟨.error (.panic "URI isn't a valid header value"), ?_, ?_⟩
          · simp only [redirectAfterForm, hx, redirectTo, hv]
            rfl
          · simp [RedirectsTo]
      | some v =>
          refine ⟨.ok ⟨StatusCode.seeOther, [("location", v)], .empty⟩, ?_, ?_⟩
          · simp only [redirectAfterForm, hx, redirectTo, hv]
            rfl
          · have hget : HeaderMap.get [("location", v)] "location" = some v := rfl
            simp [RedirectsTo, hx, hget, HeaderValue.fromStr_bytes hv]

section Login
variable {services : Services} {state : AppState}

/-- A login with valid credentials ends as `redirect_after_form` does. -/
theorem login_run {headers : HeaderMap} {context : RequestContext} {creds : Credentials}
    {cs : Nat → Choice} {w : World} {user : User}
    (hvalid : creds.validate state.validateEmail = [])
    (hverify : ((UserRepository.verify creds.email creds.password).run.run (act services) cs w).1 =
      .ok (some user))
    (hfault : ∀ n, (cs n).fault = none) {done : Except Halt Response}
    (hdone : (redirectAfterForm headers (target creds.next)).run = .ret done) :
    ((login state headers context creds).run.run (act services) cs w).1 = done := by
  rw [login]
  simp only [hvalid, ne_eq, not_true_eq_false, if_false]
  rw [ExceptT.run_bind_lift]
  obtain ⟨n, hn⟩ := Prog.run_bind (act services)
    (UserRepository.verify creds.email creds.password).run _ cs w
  rw [hn, hverify]
  simp only [AuthSession.login, ExceptT.run_bind_lift, Prog.op_bind, Prog.ret_bind,
    Prog.run_op, act, command, hfault]
  rw [target] at hdone
  rw [hdone, Prog.run_ret]

/-- A login redirects to its target exactly under `NoControl`. -/
theorem login_redirectsTo_iff {headers : HeaderMap} {context : RequestContext}
    {creds : Credentials} {cs : Nat → Choice} {w : World} {user : User}
    (hvalid : creds.validate state.validateEmail = [])
    (hverify : ((UserRepository.verify creds.email creds.password).run.run (act services) cs w).1 =
      .ok (some user))
    (hfault : ∀ n, (cs n).fault = none) :
    RedirectsTo headers (target creds.next)
      ((login state headers context creds).run.run (act services) cs w).1 ↔
      NoControl creds.next := by
  obtain ⟨done, hdone, hiff⟩ := redirectAfterForm_run headers (target creds.next)
  rw [login_run hvalid hverify hfault hdone, hiff, target_isHeader_iff]

end Login

section Concrete

/-- A login of the one account with this submitted target. -/
def submitted (next : Option String) : Credentials := ⟨"ann@example.org", "correct horse", next⟩

def quiet : Nat → Choice := fun _ => .plain 0 ⟨0⟩

theorem submitted_verify (next : Option String) :
    ((UserRepository.verify (submitted next).email (submitted next).password).run.run
      (act .plain) quiet .plain).1 = .ok (some (rowToUser annRow)) := by
  simp only [submitted]
  decide

theorem submitted_validate (next : Option String) :
    (submitted next).validate AppState.plain.validateEmail = [] := by
  simp only [submitted, Credentials.validate]
  decide

/-- A line break in the submitted path: the plain form post panics. -/
theorem login_redirect_panics :
    ¬ ∀ (services : Services) (state : AppState) (headers : HeaderMap) (context : RequestContext)
      (creds : Credentials) (cs : Nat → Choice) (w : World) (user : User),
      creds.validate state.validateEmail = [] →
      ((UserRepository.verify creds.email creds.password).run.run (act services) cs w).1 =
        .ok (some user) →
      (∀ n, (cs n).fault = none) →
      RedirectsTo headers (target creds.next)
        ((login state headers context creds).run.run (act services) cs w).1 := by
  intro hall
  have hredirect := hall .plain .plain [] .plain (submitted (some "/\n")) quiet .plain
    (rowToUser annRow) (submitted_validate _) (submitted_verify _) (fun _ => rfl)
  obtain ⟨done, hdone, hiff⟩ := redirectAfterForm_run [] (target (submitted (some "/\n")).next)
  rw [login_run (submitted_validate _) (submitted_verify _) (fun _ => rfl) hdone, hiff] at hredirect
  exact absurd hredirect (by decide)

theorem login_redirectsTo_todos :
    RedirectsTo [] (target (some "/todos"))
      ((login .plain [] .plain (submitted (some "/todos"))).run.run (act .plain) quiet
        .plain).1 := by
  refine (login_redirectsTo_iff (submitted_validate _) (submitted_verify _) fun _ => rfl).mpr ?_
  intro s hs _ _
  obtain rfl : "/todos" = s := Option.some.inj hs
  exact (headerValue_isSome_iff "/todos").mp (by decide)

end Concrete

end TodoRust.Login
