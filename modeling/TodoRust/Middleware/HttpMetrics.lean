import Mathlib.Data.Finset.Image
import Mathlib.Data.List.ProdSigma
import Mathlib.Data.Set.Finite.Basic
import TodoRust.Rust.Http

/-!
# Labels of the request metrics

Every response is counted under its method, its path and its status. A request
that matches a route is counted under the route's pattern, the static tree under
one label; everything else under the path as it was sent.
-/

namespace TodoRust.Middleware
open Rust

/-! ### Routes -/

/-- The patterns of the router; some exist in debug builds only. -/
def routePatterns (debugAssertions : Bool) : List String :=
  ["/login", "/signup", "/", "/logout", "/todos", "/todos/:id/toggle", "/todos/:id",
    "/preferences/locale"] ++
  (if debugAssertions then ["/dev/login", "/__preview", "/__preview/render/*path"] else []) ++
  ["/healthz", "/readyz", "/metrics"]

/-- The segments of a path against those of a pattern. `:name` takes one segment, which
may be empty where another follows; `*name` takes the rest, which is not empty. -/
def matchSegments : List (List Char) → List (List Char) → Bool
  | [], [] => true
  | ['*' :: _], segment :: segments => ['/'].intercalate (segment :: segments) ≠ []
  | (':' :: _) :: pattern, segment :: segments =>
      (segment ≠ [] || segments ≠ []) && matchSegments pattern segments
  | name :: pattern, segment :: segments => name = segment && matchSegments pattern segments
  | _, _ => false

/-- `MatchedPath`: the pattern of the route the path matches. Routing looks at the
path alone; a wrong method is answered by the matched route. -/
def matchedPath (debugAssertions : Bool) (path : String) : Option String :=
  (routePatterns debugAssertions).find? fun pattern =>
    matchSegments (split pattern.toList '/') (split path.toList '/')

example : matchedPath false "/todos//toggle" = some "/todos/:id/toggle" := by decide +kernel

example : matchedPath false "/todos/" = none := by decide +kernel

/-! ### The layer -/

/-- A request and the status it is answered with. -/
structure Exchange where
  method : String
  path : String
  status : StatusCode
  status_ge : 100 ≤ status
  status_lt : status < 1000

structure Labels where
  method : String
  path : String
  status : String
  deriving DecidableEq

section Layer
variable (debugAssertions : Bool) (normalizePath : String → String)

/-- The label of a path. The layers around this one rewrite the path of the request
before; what they make of it is `normalizePath`. -/
def labelPath (path : String) : String :=
  let path' := (matchedPath debugAssertions path).getD (normalizePath path)
  if startsWith path' "/static".toList then "/static/*" else path'

/-- `http_metrics_layer` -/
def httpMetricsLayer (request : Exchange) : Labels where
  method := request.method
  path := labelPath debugAssertions normalizePath request.path
  status := toString request.status

/-- The labels recorded for a sequence of requests. -/
def recorded (requests : List Exchange) : List Labels :=
  requests.map (httpMetricsLayer debugAssertions normalizePath)

end Layer

/-- The methods of HTTP. -/
def standardMethods : List String :=
  ["GET", "POST", "PUT", "DELETE", "HEAD", "OPTIONS", "CONNECT", "PATCH", "TRACE"]

def boundedPaths (debugAssertions : Bool) : List String :=
  "/static/*" :: routePatterns debugAssertions

def statuses : List String := (List.range 1000).map toString

/-- The labels the router is meant to produce, a finite set. -/
def boundedLabels (debugAssertions : Bool) : List Labels :=
  standardMethods.flatMap fun method => (boundedPaths debugAssertions).flatMap fun path =>
    statuses.map fun status => ⟨method, path, status⟩

theorem mem_boundedLabels {debugAssertions : Bool} {l : Labels} :
    l ∈ boundedLabels debugAssertions ↔ l.method ∈ standardMethods ∧
      l.path ∈ boundedPaths debugAssertions ∧ l.status ∈ statuses := by
  obtain ⟨method, path, status⟩ := l
  simp only [boundedLabels, List.mem_flatMap, List.mem_map, Labels.mk.injEq]
  constructor
  · rintro ⟨_, hmethod, _, hpath, _, hstatus, rfl, rfl, rfl⟩
    exact ⟨hmethod, hpath, hstatus⟩
  · rintro ⟨hmethod, hpath, hstatus⟩
    exact ⟨_, hmethod, _, hpath, _, hstatus, rfl, rfl, rfl⟩

section Bound
variable {debugAssertions : Bool} {normalizePath : String → String} {request : Exchange}

theorem status_mem_statuses (request : Exchange) : toString request.status ∈ statuses :=
  List.mem_map_of_mem (List.mem_range.mpr request.status_lt)

/-- The path of the request has a label of its own: it matches a route, lies in the
static tree, or reads like a pattern. -/
def PathCollapses (debugAssertions : Bool) (normalizePath : String → String) (path : String) :
    Prop :=
  (matchedPath debugAssertions path).isSome = true ∨
    startsWith (normalizePath path) "/static".toList = true ∨
    normalizePath path ∈ routePatterns debugAssertions

theorem labelPath_mem_iff (path : String) :
    labelPath debugAssertions normalizePath path ∈ boundedPaths debugAssertions ↔
      PathCollapses debugAssertions normalizePath path := by
  unfold labelPath PathCollapses boundedPaths
  cases hmatched : matchedPath debugAssertions path with
  | some pattern =>
      have hpattern : pattern ∈ routePatterns debugAssertions := List.mem_of_find?_eq_some hmatched
      refine iff_of_true ?_ (Or.inl rfl)
      dsimp only [Option.getD_some]
      split
      · exact List.mem_cons_self
      · exact List.mem_cons_of_mem _ hpattern
  | none =>
      dsimp only [Option.getD_none]
      by_cases hstatic : startsWith (normalizePath path) "/static".toList = true
      · rw [if_pos hstatic]
        exact iff_of_true List.mem_cons_self (Or.inr (Or.inl hstatic))
      · have hne : normalizePath path ≠ "/static/*" := by
          intro h
          rw [h] at hstatic
          exact hstatic (by decide)
        rw [if_neg hstatic, List.mem_cons]
        constructor
        · rintro (h | h)
          · exact absurd h hne
          · exact Or.inr (Or.inr h)
        · rintro (h | h | h)
          · cases h
          · exact absurd h hstatic
          · exact Or.inr h

/-- The recorded labels are those of the router exactly when every request has a
standard method and a path that collapses. -/
theorem recorded_bounded_iff (debugAssertions : Bool) (normalizePath : String → String)
    (requests : List Exchange) :
    (∀ l ∈ recorded debugAssertions normalizePath requests, l ∈ boundedLabels debugAssertions) ↔
      ∀ request ∈ requests, request.method ∈ standardMethods ∧
        PathCollapses debugAssertions normalizePath request.path := by
  rw [recorded, List.forall_mem_map]
  refine forall₂_congr fun request _ => ?_
  simp only [mem_boundedLabels, httpMetricsLayer, ← labelPath_mem_iff]
  constructor
  · exact fun h => ⟨h.1, h.2.1⟩
  · exact fun h => ⟨h.1, h.2, status_mem_statuses request⟩

end Bound

/-! ### Paths nobody registered -/

/-- A request for a hidden file that does not exist. -/
def scan (n : Nat) : Exchange where
  method := "GET"
  path := String.ofList ('/' :: '.' :: List.replicate n 'a')
  status := StatusCode.notFound
  status_ge := by decide
  status_lt := by decide

theorem toList_scan (n : Nat) :
    (scan n).path.toList = '/' :: '.' :: List.replicate n 'a' := by
  simp [scan]

theorem split_scan (n : Nat) :
    split (scan n).path.toList '/' = [[], '.' :: List.replicate n 'a'] := by
  have htext : (scan n).path.toList = [] ++ '/' :: '.' :: List.replicate n 'a' := toList_scan n
  have hsep : '/' ∉ '.' :: List.replicate n 'a' := by simp [List.mem_replicate]
  rw [split, htext, List.splitOn_append_cons_self, List.splitOn_nil,
    List.splitOn_eq_singleton hsep]
  rfl

/-- The next segment is a literal one and not that of a hidden file. -/
def startsPlain (pattern : List (List Char)) : Bool :=
  (pattern.head?.bind List.head?).all fun c => c != '*' && c != ':' && c != '.'

theorem matchSegments_hidden {pattern : List (List Char)} (h : startsPlain pattern = true)
    (name : List Char) : matchSegments pattern ['.' :: name] = false := by
  match pattern with
  | [] => rfl
  | [] :: rest => simp [matchSegments]
  | (c :: segment) :: rest =>
      have hc : (c ≠ '*' ∧ c ≠ ':') ∧ c ≠ '.' := by simpa [startsPlain] using h
      simp [matchSegments, hc.1.1, hc.1.2, hc.2]

theorem matchedPath_scan (n : Nat) : matchedPath false (scan n).path = none := by
  have hplain : ((routePatterns false).all fun pattern =>
      (split pattern.toList '/').head? == some [] &&
        startsPlain (split pattern.toList '/').tail) = true := by
    decide +kernel
  rw [matchedPath, split_scan, List.find?_eq_none]
  intro pattern hpattern
  have hsegments := List.all_eq_true.mp hplain pattern hpattern
  rw [Bool.and_eq_true, beq_iff_eq] at hsegments
  obtain ⟨segments, hsplit⟩ := List.head?_eq_some_iff.mp hsegments.1
  rw [hsplit, List.tail_cons] at hsegments
  rw [hsplit, Bool.not_eq_true]
  calc
    matchSegments ([] :: segments) [[], '.' :: List.replicate n 'a'] =
        matchSegments segments ['.' :: List.replicate n 'a'] := by simp [matchSegments]
    _ = false := matchSegments_hidden hsegments.2 _

theorem labelPath_scan (n : Nat) : labelPath false id (scan n).path = (scan n).path := by
  have hstatic : startsWith (scan n).path "/static".toList = false := by
    rw [startsWith, toList_scan]
    rfl
  rw [labelPath, matchedPath_scan, Option.getD_none, id, hstatic]
  rfl

/-- No finite set holds the labels of all requests. -/
theorem recorded_unbounded : ¬ ∀ (debugAssertions : Bool) (normalizePath : String → String),
    ∃ labels : Finset Labels, ∀ requests, ∀ l ∈ recorded debugAssertions normalizePath requests,
      l ∈ labels := by
  intro h
  obtain ⟨labels, hlabels⟩ := h false id
  have hinjective : Function.Injective fun n => httpMetricsLayer false id (scan n) := by
    intro m n hmn
    simp only [httpMetricsLayer, labelPath_scan, Labels.mk.injEq] at hmn
    have hpath : (scan m).path = (scan n).path := hmn.2.1
    have hlength := congrArg (fun s : String => s.toList.length) hpath
    simpa [scan] using hlength
  refine Set.infinite_of_injective_forall_mem (s := labels) hinjective ?_ labels.finite_toSet
  intro n
  have hrecorded : httpMetricsLayer false id (scan n) ∈ recorded false id [scan n] :=
    List.mem_map_of_mem (List.mem_singleton_self (scan n))
  exact hlabels [scan n] _ hrecorded

end TodoRust.Middleware
