import TodoRust.RateLimit.Limiter
import TodoRust.Rust.Http

/-!
# Whom the limiter charges

`rate_limit_middleware` picks the bucket from `X-Forwarded-For` when the proxy
is trusted. The proxy adds its own entry after whatever the client sent. Only
the first header line is read, and on it the last entry that parses, so the
proxy's entry decides under the condition stated here and no other.
-/

namespace TodoRust.RateLimit
open Rust Lib

def xForwardedFor : String := "x-forwarded-for"

/-- One comma-separated entry, `s.trim().parse::<IpAddr>().ok()`. -/
def parseEntry (entry : List Char) : Option IpAddr := IpAddr.fromStr (trimChars entry)

/-- `client_ip_from_headers` -/
def clientIpFromHeaders (headers : HeaderMap) : Option IpAddr := do
  let line ← headers.get xForwardedFor
  let xff ← line.toStr
  ((split xff.toList ',').filterMap parseEntry).getLast?

/-- The address `rate_limit_middleware` passes to `check`. -/
def RateLimiter.clientIp (limiter : RateLimiter) (conn : Option IpAddr) (headers : HeaderMap) :
    IpAddr :=
  let peerIp := conn.getD IpAddr.unspecified
  if limiter.trustForwardedFor then (clientIpFromHeaders headers).getD peerIp else peerIp

/-- `rate_limit_middleware`: `ok` runs the rest of the stack. -/
def rateLimitMiddleware (limiter : RateLimiter) (inner : Buckets) (conn : Option IpAddr)
    (headers : HeaderMap) (now : Instant) : Except (StatusCode × String) Unit × Buckets :=
  if !limiter.enabled then (.ok (), inner)
  else
    let (admitted, inner) := limiter.check inner (limiter.clientIp conn headers) now
    (if admitted then .ok () else .error (.tooManyRequests, "too many requests"), inner)

/-- Every request is charged to the bucket of `ip`, whatever the buckets are. -/
def Charges (limiter : RateLimiter) (conn : Option IpAddr) (headers : HeaderMap) (ip : IpAddr) :
    Prop :=
  ∀ inner now, (rateLimitMiddleware limiter inner conn headers now).2 =
    (limiter.check inner ip now).2

/-- Two calls that fill the same bucket of an empty map are of one address. -/
theorem check_empty_inj {self : RateLimiter} {ip ip' : IpAddr} {now : Instant}
    (h : (self.check (fun _ => none) ip now).2 = (self.check (fun _ => none) ip' now).2) :
    ip = ip' := by
  by_contra hne
  have hip := congrFun h ip
  rw [check_other hne, (check_spec self _ ip now).2, Function.update_self] at hip
  cases hip

theorem charges_iff {limiter : RateLimiter} (henabled : limiter.enabled = true)
    (conn : Option IpAddr) (headers : HeaderMap) (ip : IpAddr) :
    Charges limiter conn headers ip ↔ limiter.clientIp conn headers = ip := by
  have hrun : ∀ inner now, (rateLimitMiddleware limiter inner conn headers now).2 =
      (limiter.check inner (limiter.clientIp conn headers) now).2 := by
    intro inner now
    simp [rateLimitMiddleware, henabled]
  constructor
  · intro h
    have h₀ := h (fun _ => none) 0
    rw [hrun] at h₀
    exact check_empty_inj h₀
  · rintro rfl
    exact hrun

/-! ## What one header line names -/

/-- The line is readable, and `ip` is its last entry that is an address. -/
def NamesLast (line : HeaderValue) (ip : IpAddr) : Prop :=
  ∃ xff, line.toStr = some xff ∧ ∃ before entry after,
    split xff.toList ',' = before ++ entry :: after ∧ parseEntry entry = some ip ∧
      ∀ x ∈ after, parseEntry x = none

/-- No entry of the line, if it is readable, is an address. -/
def NamesNone (line : HeaderValue) : Prop :=
  ∀ xff, line.toStr = some xff → ∀ entry ∈ split xff.toList ',', parseEntry entry = none

/-- What the first line contributes. -/
def readLine (line : HeaderValue) : Option IpAddr :=
  line.toStr.bind fun xff => ((split xff.toList ',').filterMap parseEntry).getLast?

theorem getLast?_filterMap_eq_some {α β : Type} (f : α → Option β) (l : List α) (b : β) :
    (l.filterMap f).getLast? = some b ↔
      ∃ before a after, l = before ++ a :: after ∧ f a = some b ∧ ∀ x ∈ after, f x = none := by
  rw [← List.head?_reverse, ← List.filterMap_reverse, List.head?_filterMap,
    List.findSome?_eq_some_iff]
  constructor
  · rintro ⟨l₁, a, l₂, hl, ha, hn⟩
    refine ⟨l₂.reverse, a, l₁.reverse, ?_, ha, by simpa using hn⟩
    simpa using congrArg List.reverse hl
  · rintro ⟨before, a, after, rfl, ha, hn⟩
    exact ⟨after.reverse, a, before.reverse, by simp, ha, by simpa using hn⟩

theorem readLine_eq_some_iff (line : HeaderValue) (ip : IpAddr) :
    readLine line = some ip ↔ NamesLast line ip := by
  simp only [readLine, Option.bind_eq_some_iff, getLast?_filterMap_eq_some, NamesLast]

theorem readLine_eq_none_iff (line : HeaderValue) : readLine line = none ↔ NamesNone line := by
  simp only [readLine, Option.bind_eq_none_iff, List.getLast?_eq_none_iff, NamesNone,
    List.filterMap_eq_nil_iff]

/-! ## The proxy -/

/-- Where the proxy writes its own entry. -/
inductive Placement
  | sameLine
  | newLine

/-- The lines that reach the application: the client's, with the proxy's entry
after a comma on the last one or on a line of its own. -/
def forwarded (how : Placement) (lines : List HeaderValue) (own : HeaderValue) :
    List HeaderValue :=
  match how, lines.getLast? with
  | .sameLine, some last => lines.dropLast ++ [last.joinComma own]
  | _, _ => lines ++ [own]

/-- The address the proxy's entry parses to. -/
def ownIp (own : HeaderValue) : Option IpAddr :=
  own.toStr.bind fun entry => parseEntry entry.toList

/-- Every request with these client lines is charged to the proxy's entry, or to
the socket peer when that entry is no address. -/
def ChargesProxyEntry (how : Placement) (lines : List HeaderValue) (own : HeaderValue) : Prop :=
  ∀ (limiter : RateLimiter) (conn : Option IpAddr) (headers : HeaderMap),
    limiter.enabled = true → limiter.trustForwardedFor = true →
    headers.getAll xForwardedFor = forwarded how lines own →
    Charges limiter conn headers ((ownIp own).getD (conn.getD IpAddr.unspecified))

/-- When the proxy's entry decides. It does if the client sent no line. If it
sits on the client's only line, that line must be readable or the entry no
address, and an entry that is no address needs a line without any. Otherwise
the client's first line is read instead, and has to name the same by accident. -/
def ProxyEntryDecides (own : HeaderValue) : Placement → List HeaderValue → Prop
  | _, [] => True
  | .sameLine, [line] =>
      (line.toStr = none → ownIp own = none) ∧
      (own.toStr ≠ none → ownIp own = none → NamesNone line)
  | _, line :: _ => ∀ ip, ownIp own = some ip ↔ NamesLast line ip

/-- Options that agree under every default are equal. -/
theorem forall_getD_iff {a b : Option IpAddr} :
    (∀ d : Option IpAddr, a.getD (d.getD IpAddr.unspecified) =
      b.getD (d.getD IpAddr.unspecified)) ↔ a = b := by
  constructor
  · intro h
    cases a with
    | none =>
        cases b with
        | none => rfl
        | some y =>
            have h₁ := h (some (.v4 1))
            have h₂ := h (some (.v4 2))
            simp only [Option.getD_some, Option.getD_none] at h₁ h₂
            exact absurd (h₁.trans h₂.symm) (by decide)
    | some x =>
        cases b with
        | none =>
            have h₁ := h (some (.v4 1))
            have h₂ := h (some (.v4 2))
            simp only [Option.getD_some, Option.getD_none] at h₁ h₂
            exact absurd (h₁.symm.trans h₂) (by decide)
        | some y => simpa using h none
  · rintro rfl d
    rfl

theorem clientIpFromHeaders_eq (headers : HeaderMap) :
    clientIpFromHeaders headers = (headers.getAll xForwardedFor).head?.bind readLine := by
  rw [clientIpFromHeaders, HeaderMap.get_eq_head?_getAll]
  rfl

/-- Charging the proxy's entry is a matter of the first line only. -/
theorem chargesProxyEntry_iff_readLine (how : Placement) (lines : List HeaderValue)
    (own : HeaderValue) : ChargesProxyEntry how lines own ↔
      (forwarded how lines own).head?.bind readLine = ownIp own := by
  constructor
  · intro h
    apply forall_getD_iff.mp
    intro conn
    let headers : HeaderMap := (forwarded how lines own).map fun line => (xForwardedFor, line)
    have hall : headers.getAll xForwardedFor = forwarded how lines own := by
      simp [headers, HeaderMap.getAll, List.filter_map, Function.comp_def]
    have hcharge := h { ratePerSec := 0, burst := 1, trustForwardedFor := true, enabled := true }
      conn headers rfl rfl hall
    rw [charges_iff rfl] at hcharge
    simpa only [RateLimiter.clientIp, if_true, clientIpFromHeaders_eq, hall] using hcharge
  · intro h limiter conn headers henabled htrust hall
    rw [charges_iff henabled, RateLimiter.clientIp, htrust, if_pos rfl, clientIpFromHeaders_eq,
      hall, h]

theorem readLine_own {own : HeaderValue} (hown : (44 : UInt8) ∉ own.bytes) :
    readLine own = ownIp own := by
  unfold readLine ownIp
  cases hs : own.toStr with
  | none => rfl
  | some s =>
      have hsplit : split s.toList ',' = [s.toList] :=
        List.splitOn_eq_singleton (HeaderValue.comma_not_mem_toStr hown hs)
      cases hp : parseEntry s.toList with
      | none => simp [hsplit, hp]
      | some ip => simp [hsplit, hp]

/-- On a shared line the proxy's entry comes last; the client's entries count
only when it is no address. -/
theorem readLine_joinComma {line own : HeaderValue} (hown : (44 : UInt8) ∉ own.bytes) :
    readLine (line.joinComma own) = ownIp own ↔
      (line.toStr = none → ownIp own = none) ∧
      (own.toStr ≠ none → ownIp own = none → NamesNone line) := by
  rw [readLine, HeaderValue.toStr_joinComma]
  cases hl : line.toStr with
  | none => simp [NamesNone, hl, eq_comm]
  | some x =>
      cases hs : own.toStr with
      | none => simp [ownIp, hs]
      | some s =>
          have hcomma := HeaderValue.comma_not_mem_toStr hown hs
          have hsplit : split (x ++ "," ++ s).toList ',' = split x.toList ',' ++ [s.toList] := by
            have hlist : (x ++ "," ++ s).toList = x.toList ++ ',' :: s.toList := by simp
            rw [hlist, split, List.splitOn_append_cons_self, List.splitOn_eq_singleton hcomma]
            rfl
          have hown' : ownIp own = parseEntry s.toList := by simp [ownIp, hs]
          have hnone : NamesNone line ↔
              ((split x.toList ',').filterMap parseEntry).getLast? = none := by
            rw [← readLine_eq_none_iff, readLine, hl]
            rfl
          simp only [Option.bind_some, Option.map_some, hsplit, hown', List.filterMap_append,
            reduceCtorEq, false_implies, true_and, ne_eq, not_false_eq_true, true_implies, hnone]
          cases hp : parseEntry s.toList with
          | none => simp [hp]
          | some ip => simp [hp]

/-- The client cannot choose its bucket exactly under `ProxyEntryDecides`. -/
theorem charges_proxy_entry_iff (how : Placement) (lines : List HeaderValue) (own : HeaderValue)
    (hown : (44 : UInt8) ∉ own.bytes) :
    ChargesProxyEntry how lines own ↔ ProxyEntryDecides own how lines := by
  rw [chargesProxyEntry_iff_readLine]
  have hfirst : ∀ line, readLine line = ownIp own ↔
      ∀ ip, ownIp own = some ip ↔ NamesLast line ip := by
    intro line
    simp only [← readLine_eq_some_iff]
    constructor
    · intro h ip
      rw [h]
    · intro h
      exact Option.ext fun ip => (h ip).symm
  match how, lines with
  | .sameLine, [] => simpa [forwarded, ProxyEntryDecides] using readLine_own hown
  | .newLine, [] => simpa [forwarded, ProxyEntryDecides] using readLine_own hown
  | .sameLine, [line] => simpa [forwarded, ProxyEntryDecides] using readLine_joinComma hown
  | .sameLine, line :: next :: rest =>
      have hhead : (forwarded .sameLine (line :: next :: rest) own).head? = some line := by
        obtain ⟨last, hlast⟩ : ∃ last, (line :: next :: rest).getLast? = some last :=
          ⟨_, List.getLast?_cons⟩
        simp only [forwarded, hlast, List.dropLast_cons_cons, List.cons_append, List.head?_cons]
      rw [hhead, Option.bind_some, hfirst]
      rfl
  | .newLine, line :: rest =>
      have hhead : (forwarded .newLine (line :: rest) own).head? = some line := rfl
      rw [hhead, Option.bind_some, hfirst]
      cases rest <;> rfl

/-- A client line naming one address, and a proxy that adds its own line. -/
theorem client_line_charged : ¬ ∀ how lines own, (44 : UInt8) ∉ own.bytes →
    ChargesProxyEntry how lines own := by
  intro hall
  let client : HeaderValue := ⟨asBytes "198.51.100.1", by decide⟩
  let own : HeaderValue := ⟨asBytes "203.0.113.7", by decide⟩
  have hcharge := hall .newLine [client] own (by decide)
  rw [chargesProxyEntry_iff_readLine] at hcharge
  exact absurd hcharge (by decide)

/-- A single client line that the proxy extends: the entry after the last comma
is charged. -/
theorem charges_proxy_entry_shared_line :
    ChargesProxyEntry .sameLine [⟨asBytes "198.51.100.1", by decide⟩]
      ⟨asBytes " 203.0.113.7", by decide⟩ := by
  refine (charges_proxy_entry_iff _ _ _ (by decide)).mpr ⟨fun h => ?_, fun _ h => ?_⟩
  · exact absurd h (by decide)
  · exact absurd h (by decide)

end TodoRust.RateLimit
