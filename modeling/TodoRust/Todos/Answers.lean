import TodoRust.Lib.Ensures
import TodoRust.Todos.ListEffects
import TodoRust.Visits.WithoutRedis
import Mathlib.Data.List.Flatten

/-!
# What a request does to the list, and the rows of its answer

A request answers with the list, with the row it has written, or with none. What it does to
the list in the table is then what its rows do to the list on a page. A list that is read
may come from the cache, and is the one in the table all the same as long as what is cached
for the client is; a write leaves nothing cached.
-/

namespace TodoRust.Todos
open Lib Domain Storage App

/-! ### Swaps -/

/-- `hx-target="closest li"` with `hx-swap="outerHTML"`. -/
def replaceRow (id : TodoId) (fragment rows : List Todo) : List Todo :=
  rows.flatMap fun t => if t.id = id then fragment else [t]

/-- The rows after an answer with the rows of `fragment`: a page of its own for what is
loaded or has `hx-target="body"`, `hx-swap="afterbegin"` for a new row, and
`hx-swap="none"` for the locale. -/
def swap (fragment rows : List Todo) : Route → List Todo
  | .index | .list | .login _ | .signup _ => fragment
  | .create _ => fragment ++ rows
  | .toggle id | .delete id => replaceRow ⟨id⟩ fragment rows
  | .updateLocale _ => rows

def isToggle : Route → Bool
  | .toggle _ => true
  | .index | .list | .create _ | .delete _ | .updateLocale _ | .login _ | .signup _ => false

/-- The todos on a page, or that of a partial. -/
def rowsIn (context : Context) : List Todo :=
  context.flatMap fun entry =>
    match entry.2 with
    | .todos rows => rows
    | .todo row => [row]
    | .str _ | .bool _ | .none | .user _ => []

def rowsOf (response : Response) : List Todo :=
  match response.body with
  | .html _ context => rowsIn context
  | .empty | .text _ => []

/-- The rows a request is answered with; an error has none. -/
def shown : Except String Response → List Todo
  | .ok response => rowsOf response
  | .error _ => []

/-- A 2xx. -/
def Succeeded (reply : Except String Response) : Prop :=
  ∃ response, reply = .ok response ∧ 200 ≤ response.status ∧ response.status < 300

section Swap
variable {route : Route} {fragment rows rows' : List Todo} {id : TodoId}

theorem replaceRow_singleton (todo : Todo) :
    replaceRow id [todo] rows = rows.map fun t => if t.id = id then todo else t := by
  rw [replaceRow, List.map_eq_flatMap]
  refine List.flatMap_congr fun t _ => ?_
  split
  · rfl
  · rfl

theorem replaceRow_nil : replaceRow id [] rows = rows.filter (·.id ≠ id) := by
  unfold replaceRow
  induction rows with
  | nil => rfl
  | cons t rows ih =>
      rw [List.flatMap_cons, ih]
      by_cases hid : t.id = id
      · simp [hid]
      · simp [hid]

theorem swap_perm (h : rows.Perm rows') :
    (swap fragment rows route).Perm (swap fragment rows' route) := by
  cases route with
  | index | list | login | signup => exact List.Perm.refl _
  | create new => exact h.append_left fragment
  | toggle id | delete id => exact h.flatMap_right _
  | updateLocale => exact h

/-- Fewer rows before are fewer rows after. -/
theorem swap_subperm (h : rows.Subperm rows') :
    (swap fragment rows route).Subperm (swap fragment rows' route) := by
  obtain ⟨own, hperm, hsub⟩ := h
  refine ⟨swap fragment own route, swap_perm hperm, ?_⟩
  cases route with
  | index | list | login | signup => exact List.Sublist.refl _
  | create new => exact hsub.append_left fragment
  | toggle id | delete id => exact hsub.flatMap _
  | updateLocale => exact hsub

/-- An answer without rows adds none. -/
theorem swap_nil_sublist : (swap [] rows route).Sublist rows := by
  cases route with
  | index | list | login | signup => exact List.nil_sublist _
  | create | updateLocale => exact List.Sublist.refl _
  | toggle id | delete id =>
      rw [swap, replaceRow_nil]
      exact List.filter_sublist

end Swap

/-- The list in the table changes as the rows on a page do. -/
structure Follows (route : Route) (fragment before after : List Todo) : Prop where
  perm : after.Perm (swap fragment before route)
  ordered : isToggle route = false → after = swap fragment before route

theorem Follows.of_eq {route : Route} {fragment before after : List Todo}
    (h : after = swap fragment before route) : Follows route fragment before after :=
  ⟨List.Perm.of_eq h, fun _ => h⟩

/-- Rows that are taken off a page without need are in the table all the same. -/
theorem Follows.swap_nil {route : Route} {fragment before after : List Todo}
    (h : Follows route fragment before after) : (swap [] before route).Subperm after := by
  refine List.Subperm.trans ?_ h.perm.symm.subperm
  cases route with
  | index | list | login | signup => exact List.nil_subperm
  | create new => exact (List.sublist_append_right fragment _).subperm
  | toggle id | delete id =>
      refine (List.Sublist.flatMap_right _ fun t _ => ?_).subperm
      split
      · exact List.nil_sublist fragment
      · exact List.Sublist.refl _
  | updateLocale => exact (List.Sublist.refl _).subperm

/-- What a request answers with and what becomes of the list. -/
inductive Answers (route : Route) (before : List Todo) (reply : Except String Response)
    (after : List Todo) : Prop
  | refused (hlist : after = before) (hshown : shown reply = []) (hfails : ¬ Succeeded reply)
  | done (h : Follows route (shown reply) before after)
  /-- The write has been made, and the answer is an error. -/
  | unseen (fragment : List Todo) (h : Follows route fragment before after)
      (hshown : shown reply = []) (hfails : ¬ Succeeded reply)

section Replies
variable {route : Route} {rows : List Todo}

theorem not_succeeded {response : Response} (h : 300 ≤ response.status) :
    ¬ Succeeded (.ok response) := by
  rintro ⟨response', hr, -, hlt⟩
  rw [← Except.ok.inj hr] at hlt
  exact absurd hlt (Nat.not_lt.mpr h)

theorem not_succeeded_error (e : AppError) :
    ¬ Succeeded (Handler.finish (.error (.error e))) := by
  have hstatus : 300 ≤ e.intoResponse.status := le_trans (by decide) e.le_status
  exact not_succeeded hstatus

theorem Answers.error (e : AppError) :
    Answers route rows (Handler.finish (.error (.error e))) rows :=
  .refused rfl rfl (not_succeeded_error e)

end Replies

/-! ### What is cached -/

/-- The cached list of the client, if it can be read, is the one in the table. -/
def Cached (state : AppState) (u : UserId) (w : World) : Prop :=
  state.cache.pool = true → ∀ entry todos, w.redis (todosCacheKey u) = some entry →
    state.todosJson.fromStr entry.raw = some todos → todos = listed w.db u

section Cached
variable {services : Services} {state : AppState} {u : UserId} {c : Choice} {w w' : World}
variable {key raw : String}

theorem Cached.congr (h : Cached state u w)
    (hredis : w'.redis (todosCacheKey u) = w.redis (todosCacheKey u))
    (hlisted : listed w'.db u = listed w.db u) : Cached state u w' := by
  intro hpool entry todos hentry hread
  rw [hredis] at hentry
  rw [hlisted]
  exact h hpool entry todos hentry hread

/-- Another entry. -/
theorem Cached.setRedis (h : Cached state u w) (hkey : key ≠ todosCacheKey u)
    (entry : Option RedisEntry) : Cached state u (w.setRedis key entry) := by
  apply h.congr
  · rw [World.setRedis_redis, if_neg hkey.symm]
  · rfl

theorem cached_del : Cached state u (w.setRedis (todosCacheKey u) none) := by
  intro _ entry todos hentry
  rw [World.setRedis_redis, if_pos rfl] at hentry
  cases hentry

theorem cached_set (hraw : state.todosJson.toString (listed w.db u) = some raw)
    (expiresAt : OffsetDateTime) :
    Cached state u (w.setRedis (todosCacheKey u) (some { raw, expiresAt })) := by
  intro _ entry todos hentry hread
  rw [World.setRedis_redis, if_pos rfl] at hentry
  obtain rfl := Option.some.inj hentry
  rw [state.todosJson.fromStr_toString hraw] at hread
  exact (Option.some.inj hread).symm

theorem Cached.dropped (h : Cached state u w) (key : String) :
    Cached state u (w.setRedis key none) := by
  by_cases hkey : key = todosCacheKey u
  · rw [hkey]
    exact cached_del
  · exact h.setRedis hkey none

/-- A command that may fail, before and after its effect. -/
theorem command_cases {P : World → Prop} {done : World} (h : P w) (hdone : P done) :
    P (command c w done).2 := by
  unfold command
  cases c.fault with
  | none => exact hdone
  | some message =>
      cases c.tookEffect with
      | false => exact h
      | true => exact hdone

end Cached

/-! ### What the handlers do -/

/-- A step at a time from `first` to `last`, by which no deletion is lost. -/
def Timely (first last : OffsetDateTime) (e : Effect) (c : Choice) : Prop :=
  Visits.Deletes e c ∧ first ≤ c.now ∧ c.now ≤ last

/-- The rows of the client are `rows`, and so is what is cached of them. -/
structure Ready (state : AppState) (u : UserId) (past : OffsetDateTime) (rows : List Todo)
    (w : World) : Prop where
  dated : Dated w.db past
  list : listed w.db u = rows
  cached : Cached state u w

/-- The rows of the client have come to be some with `P`. -/
structure Wrote (u : UserId) (last : OffsetDateTime) (P : List Todo → Prop) (w : World) :
    Prop where
  dated : Dated w.db last
  list : P (listed w.db u)

/-- A write has changed the rows, or has failed and changed nothing. -/
def Written {α : Type} (state : AppState) (u : UserId) (past last : OffsetDateTime) (route : Route)
    (rows : List Todo) (fragment : α → List Todo) (done : Except StorageError α) (w : World) :
    Prop :=
  match done with
  | .ok a => Wrote u last (Follows route (fragment a) rows) w
  | .error _ => Ready state u past rows w

/-- A request has ended. -/
structure Ended (state : AppState) (u : UserId) (last : OffsetDateTime) (route : Route)
    (rows : List Todo) (reply : Except String Response) (w : World) : Prop where
  dated : Dated w.db last
  cached : Cached state u w
  answers : Answers route rows reply (listed w.db u)

section Handlers
variable {services : Services} {state : AppState} {u : UserId} {α : Type} {route : Route}
variable {past first last : OffsetDateTime} {rows : List Todo} {P : List Todo → Prop} {w : World}

/-- What an action leaves behind, when its steps are timely. -/
abbrev Leads (services : Services) (first last : OffsetDateTime) (pre : World → Prop)
    (p : Action α) (post : α → World → Prop) : Prop :=
  Prog.Ensures (act services) (Timely first last) pre p post

theorem Ready.ended (h : Ready state u past rows w) (hlast : past < last)
    {reply : Except String Response} (hreply : Answers route rows reply rows) :
    Ended state u last route rows reply w := by
  refine ⟨h.dated.mono hlast.le, h.cached, ?_⟩
  rw [h.list]
  exact hreply

/-- The steps that touch neither the todos nor the cache. -/
theorem Ready.outside (h : Ready state u past rows w) {e : Effect} {c : Choice}
    (he : Visits.OutsideRedis none e) : Ready state u past rows (act services c e w).2 := by
  cases e with
  | sql stmt =>
      have hwrites : stmt.writesTodos = false := by
        cases hwrites : stmt.writesTodos with
        | false => rfl
        | true =>
            obtain ⟨v, hv, -⟩ := he hwrites
            cases hv
      rw [act_sql]
      cases c.fault with
      | some message => exact h
      | none =>
          have htodos : (w.db.exec services.pg c.now stmt).2.todos = w.db.todos :=
            Database.exec_todos hwrites
          have hlisted : listed (w.db.exec services.pg c.now stmt).2 u = listed w.db u := by
            simp only [listed, Database.selectTodos, htodos]
          refine ⟨?_, hlisted.trans h.list, h.cached.congr rfl hlisted⟩
          exact ⟨htodos ▸ h.dated.ids, htodos ▸ h.dated.created, htodos ▸ h.dated.past⟩
  | redisGet | redisSet | redisDel => exact absurd he id
  | newUuid => exact h
  | generateHash | verifyPassword =>
      unfold act
      cases c.fault with
      | some message => exact h
      | none => exact h
  | sessionLogin | render => exact command_cases h h

/-- Such a program keeps the rows. -/
theorem leads_outside {p : Action α} {allowed : Effect → Prop} {done : α → Unit → Prop}
    (hp : Prog.Obeys (.permitting allowed) done () p)
    (h : ∀ e, allowed e → Visits.OutsideRedis none e) :
    Leads services first last (Ready state u past rows) p fun _ => Ready state u past rows := by
  apply Prog.Ensures.keeps hp
  exact fun e c w he _ hready => hready.outside (h e he)

theorem leads_select {β : Type} {k : Except SqlxError (List TodoRow) → Action β}
    {post : β → World → Prop}
    (hk : ∀ r, (∀ selected, r = .ok selected → selected.map rowToTodo = rows) →
      Leads services first last (Ready state u past rows) (k r) post) :
    Leads services first last (Ready state u past rows) (.op (.sql (.selectTodos u.uuid)) k)
      post := by
  refine Prog.Ensures.op (fun r w => Ready state u past rows w ∧
    ∀ selected, r = .ok selected → selected.map rowToTodo = rows) ?_ ?_
  · intro c w _ hready
    refine ⟨hready.outside (fun h => by cases h), fun selected hselected => ?_⟩
    rw [act_sql] at hselected
    cases hfault : c.fault with
    | some message =>
        rw [hfault] at hselected
        cases hselected
    | none =>
        rw [hfault] at hselected
        rw [← Except.ok.inj hselected]
        exact hready.list
  · intro r w l b w' hmid
    exact hk r hmid.2 w l b w' hmid.1

/-- A list that is returned is the list. -/
def Returns (state : AppState) (u : UserId) (past : OffsetDateTime) (rows : List Todo)
    (done : Except StorageError (List Todo)) (w : World) : Prop :=
  Ready state u past rows w ∧ ∀ todos, done = .ok todos → todos = rows

theorem returns_ok {todos : List Todo} (htodos : todos = rows) :
    Leads services first last (Ready state u past rows) (.ret (.ok todos))
      (Returns state u past rows) :=
  Prog.Ensures.ret fun _ h => ⟨h, fun _ hok => (Except.ok.inj hok).symm.trans htodos⟩

theorem returns_error (e : StorageError) :
    Leads services first last (Ready state u past rows) (.ret (.error e))
      (Returns state u past rows) :=
  Prog.Ensures.ret fun _ h => ⟨h, fun _ hok => by cases hok⟩

theorem listForUser_leads :
    Leads services first last (Ready state u past rows) (TodoRepository.listForUser u).run
      (Returns state u past rows) := by
  rw [TodoRepository.listForUser_program]
  apply leads_select
  intro r hr
  cases r with
  | error e => exact returns_error _
  | ok selected => exact returns_ok (hr selected rfl)

/-- What is stored is the list. -/
theorem backfill_leads :
    Leads services first last (Ready state u past rows) (state.backfill u rows)
      (Returns state u past rows) := by
  unfold AppState.backfill
  cases hraw : state.todosJson.toString rows with
  | none => exact returns_ok rfl
  | some raw =>
      refine Prog.Ensures.op (fun _ => Ready state u past rows) ?_ fun _ => returns_ok rfl
      intro c w _ hready
      have hset := cached_set (hready.list.symm ▸ hraw) (c.now + 1000000 * (60 : Nat))
      exact command_cases hready ⟨hready.dated, hready.list, hset⟩

/-- The cached list is the list. -/
theorem listTodosCached_leads :
    Leads services first last (Ready state u past rows) (state.listTodosCached u).run
      (Returns state u past rows) := by
  rw [AppState.listTodosCached_program]
  cases hpool : state.cache.pool with
  | false =>
      rw [if_neg Bool.false_ne_true]
      exact listForUser_leads
  | true =>
      rw [if_pos rfl]
      refine Prog.Ensures.op (fun reply w => Ready state u past rows w ∧
        ∀ todos, Cache.decode state.todosJson reply = some todos → todos = rows) ?_ ?_
      · intro c w _ hready
        have hkept : (act services c (.redisGet (todosCacheKey u)) w).2 = w := by
          unfold act
          cases c.fault with
          | none => rfl
          | some message => rfl
        rw [hkept]
        refine ⟨hready, fun todos hread => ?_⟩
        obtain ⟨entry, hentry, htodos⟩ := Cache.decode_redisGet _ hread
        exact (hready.cached hpool entry todos hentry htodos).trans hready.list
      · intro reply w l done w' hmid
        cases hread : Cache.decode state.todosJson reply with
        | some todos => exact returns_ok (hmid.2 todos hread) w l done w' hmid.1
        | none =>
            refine leads_select (fun r hr => ?_) w l done w' hmid.1
            cases r with
            | error e => exact returns_error _
            | ok selected =>
                obtain rfl := hr selected rfl
                exact backfill_leads

/-- After a write nothing is cached, and a deletion is not lost. -/
theorem invalidate_leads :
    Leads services first last (Wrote u last P) (state.invalidateTodosCache u)
      fun _ w => Wrote u last P w ∧ Cached state u w := by
  rw [AppState.invalidateTodosCache_program]
  cases hpool : state.cache.pool with
  | false =>
      apply Prog.Ensures.ret
      intro w hwrote
      refine ⟨hwrote, fun hon => ?_⟩
      rw [hpool] at hon
      cases hon
  | true =>
      rw [if_pos rfl]
      refine Prog.Ensures.op (fun _ w => Wrote u last P w ∧ Cached state u w) ?_ ?_
      · intro c w hok hwrote
        have htook := hok.1 _ rfl
        have hdeleted : Wrote u last P (w.setRedis (todosCacheKey u) none) ∧
            Cached state u (w.setRedis (todosCacheKey u) none) :=
          ⟨⟨hwrote.dated, hwrote.list⟩, cached_del⟩
        simp only [act, command]
        cases hfault : c.fault with
        | none => exact hdeleted
        | some message =>
            rw [hfault] at htook
            have htook' : c.tookEffect = true := htook
            simp only [htook', if_true]
            exact hdeleted
      · exact fun _ => Prog.Ensures.ret fun w h => h

theorem act_sql_dated (h : Dated w.db past) {c : Choice} (hnow : past < c.now)
    (stmt : Statement) : Dated (act services c (.sql stmt) w).2.db c.now := by
  rw [act_sql]
  cases c.fault with
  | some message => exact h.of_sublist hnow (List.Sublist.refl _)
  | none => exact h.exec hnow stmt

theorem act_sql_redis (services : Services) (c : Choice) (stmt : Statement) (w : World) :
    (act services c (.sql stmt) w).2.redis = w.redis := by
  rw [act_sql]
  cases c.fault with
  | some message => rfl
  | none => rfl

/-- One statement, given what it does to the rows when it succeeds. -/
theorem statement_leads (hfirst : past < first) {p : Action (Except StorageError α)}
    {stmt : Statement} {read : Except SqlxError stmt.Rows → Except StorageError α}
    {fragment : α → List Todo} (hp : p = .op (.sql stmt) fun r => .ret (read r))
    (hread : ∀ rows e, read (.ok rows) = .error e → stmt.commits rows = false)
    (hfollows : ∀ (c : Choice) w a, Dated w.db past → past < c.now →
      (p.run (act services) (fun _ => c) w).1 = .ok a →
      Follows route (fragment a) (listed w.db u)
        (listed (p.run (act services) (fun _ => c) w).2.db u)) :
    Leads services first last (Ready state u past rows) p
      (Written state u past last route rows fragment) := by
  subst hp
  refine Prog.Ensures.op (fun r => Written state u past last route rows fragment (read r)) ?_
    fun r => Prog.Ensures.ret fun w h => h
  intro c w hok hready
  obtain ⟨-, hnow, hlast⟩ := hok
  cases hdone : read (act services c (.sql stmt) w).1 with
  | ok a =>
      have hlist := hfollows c w a hready.dated (hfirst.trans_le hnow) hdone
      rw [hready.list] at hlist
      exact ⟨(act_sql_dated hready.dated (hfirst.trans_le hnow) stmt).mono hlast, hlist⟩
  | error e =>
      have hrun : (Prog.op (.sql stmt) fun r => .ret (read r) : Action _).run (act services)
          (fun _ => c) w = (.error e, (act services c (.sql stmt) w).2) := Prod.ext hdone rfl
      have hdb : (act services c (.sql stmt) w).2.db = w.db := by
        rw [← run_sql_error rfl hread (congrArg Prod.fst hrun), hrun]
      have hredis := congrFun (act_sql_redis services c stmt w)
      refine ⟨hdb ▸ hready.dated, hdb ▸ hready.list, hready.cached.congr (hredis _) ?_⟩
      rw [hdb]

theorem create_leads (hfirst : past < first) (new : NewTodo) :
    Leads services first last (Ready state u past rows) (TodoRepository.create u new).run
      (Written state u past last (.create new) rows fun todo => [todo]) := by
  rw [TodoRepository.create_program]
  refine Prog.Ensures.op (fun _ => Ready state u past rows) (fun c w _ h => h) fun id => ?_
  have hinsert : (Prog.op (.sql (.insertTodo id u.uuid (Rust.trim new.title))) fun r =>
      .ret ((r.map rowToTodo).mapError .database) : Action _) =
      .op (.sql (.insertTodo id u.uuid (Rust.trim new.title))) fun r => .ret (readCreated r) := rfl
  apply statement_leads hfirst hinsert
  · exact fun rows e he => by cases he
  · intro c w todo hdated hnow hok
    exact Follows.of_eq (listed_insertTodo hdated hnow hok)

theorem toggle_leads (hfirst : past < first) (id : Uuid) :
    Leads services first last (Ready state u past rows) (TodoRepository.toggle u ⟨id⟩).run
      (Written state u past last (.toggle id) rows fun todo => [todo]) := by
  apply statement_leads hfirst (TodoRepository.toggle_program u ⟨id⟩)
  · exact fun _ _ => readFound_ok_error
  · intro c w todo hdated hnow hok
    obtain ⟨-, hperm, -⟩ := listed_toggle hdated hnow hok
    rw [← replaceRow_singleton] at hperm
    refine ⟨hperm, fun htoggle => ?_⟩
    cases htoggle

theorem delete_leads (hfirst : past < first) (id : Uuid) :
    Leads services first last (Ready state u past rows) (TodoRepository.delete u ⟨id⟩).run
      (Written state u past last (.delete id) rows fun _ => []) := by
  apply statement_leads hfirst (TodoRepository.delete_program u ⟨id⟩)
  · exact fun _ _ => readDeleted_ok_error
  · intro c w done hdated _ hok
    have hlisted := listed_delete hdated hok
    rw [← replaceRow_nil] at hlisted
    exact Follows.of_eq hlisted

/-- A page or a partial, whose rows are those of the table. -/
theorem page_leads {status : Rust.StatusCode} {headers : Rust.HeaderMap} {template : String}
    {context : Context} :
    Leads services first last
      (fun w => Wrote u last (Follows route (rowsIn context) rows) w ∧ Cached state u w)
      (renderPage status headers template context).run
      fun done => Ended state u last route rows (Handler.finish done) := by
  rw [renderPage_program]
  refine Prog.Ensures.op (fun _ w =>
    Wrote u last (Follows route (rowsIn context) rows) w ∧ Cached state u w) ?_ fun reply => ?_
  · intro c w _ h
    exact command_cases (P := fun w => Wrote u last (Follows route (rowsIn context) rows) w ∧
      Cached state u w) h h
  · cases reply with
    | ok done =>
        apply Prog.Ensures.ret
        exact fun w h => ⟨h.1.dated, h.2, .done h.1.list⟩
    | error message =>
        apply Prog.Ensures.ret
        exact fun w h => ⟨h.1.dated, h.2, .unseen _ h.1.list rfl (not_succeeded_error _)⟩

/-- A repository call followed by `?`. -/
theorem call_leads {pre : World → Prop} {mid : Except StorageError α → World → Prop}
    {c : Call α} {f : α → Handler Response} (hlast : past < last)
    (hc : Leads services first last pre c.run mid)
    (hf : ∀ a, Leads services first last (mid (.ok a)) (f a).run fun done =>
      Ended state u last route rows (Handler.finish done))
    (herr : ∀ e w, mid (.error e) w → Ready state u past rows w) :
    Leads services first last pre (Handler.call c >>= f).run fun done =>
      Ended state u last route rows (Handler.finish done) := by
  rw [Handler.run_call_bind]
  refine hc.bind ?_
  intro done
  cases done with
  | ok a => exact hf a
  | error e =>
      apply Prog.Ensures.ret
      exact fun w h => (herr e w h).ended hlast (.error _)

/-- The list, and the page or partial with it. -/
theorem load_leads (hlast : past < last) {template : String} {page : List Todo → Context}
    (hroute : ∀ fragment, swap fragment rows route = fragment)
    (hrows : ∀ todos, rowsIn (page todos) = todos) :
    Leads services first last (Ready state u past rows) (do
      let todos ← Handler.call (state.listTodosCached u)
      renderPage Rust.StatusCode.ok [] template (page todos) : Handler Response).run
      fun done => Ended state u last route rows (Handler.finish done) := by
  apply call_leads hlast listTodosCached_leads
  · intro todos
    refine page_leads.of_pre ?_
    rintro w ⟨hready, htodos⟩
    obtain rfl := htodos todos rfl
    refine ⟨⟨hready.dated.mono hlast.le, ?_⟩, hready.cached⟩
    rw [hrows, hready.list]
    exact Follows.of_eq (hroute todos).symm
  · exact fun _ _ h => h.1

/-- A write, its invalidation, and the answer. -/
theorem write_leads (hlast : past < last) {c : Call α} {answer : α → Handler Response}
    {fragment : α → List Todo}
    (hc : Leads services first last (Ready state u past rows) c.run
      (Written state u past last route rows fragment))
    (hanswer : ∀ a, Leads services first last
      (fun w => Wrote u last (Follows route (fragment a) rows) w ∧ Cached state u w)
      (answer a).run fun done => Ended state u last route rows (Handler.finish done)) :
    Leads services first last (Ready state u past rows) (do
      let a ← Handler.call c
      ExceptT.lift (state.invalidateTodosCache u)
      answer a : Handler Response).run
      fun done => Ended state u last route rows (Handler.finish done) := by
  apply call_leads hlast hc
  · intro a
    rw [ExceptT.run_bind_lift]
    exact invalidate_leads.bind fun _ => hanswer a
  · exact fun _ _ h => h

theorem handle_leads (hfirst : past < first) (hlast : past < last) {auth : AuthSession}
    (hauth : ∀ user, auth.user = some user → user.id = u) (request : Request)
    (hroute : Requests.isUserRoute request.route = true) :
    Leads services first last (Ready state u past rows) (handle state auth request).run
      fun done => Ended state u last request.route rows (Handler.finish done) := by
  obtain ⟨headers, context, route⟩ := request
  cases route with
  | index =>
      obtain ⟨_ | user⟩ := auth
      · exact Prog.Ensures.ret fun w h =>
          h.ended hlast (.refused rfl rfl (not_succeeded (by decide)))
      · obtain rfl := hauth user rfl
        exact load_leads hlast (fun _ => rfl) fun todos => List.append_nil todos
  | list =>
      obtain ⟨_ | user⟩ := auth
      · exact Prog.Ensures.ret fun w h => h.ended hlast (.error _)
      · obtain rfl := hauth user rfl
        exact load_leads hlast (fun _ => rfl) fun todos => List.append_nil todos
  | create new =>
      obtain ⟨_ | user⟩ := auth
      · exact Prog.Ensures.ret fun w h => h.ended hlast (.error _)
      · obtain rfl := hauth user rfl
        simp only [handle, create, requireUser_some, expect_some]
        split
        · exact Prog.Ensures.ret fun w h => h.ended hlast (.error _)
        · exact write_leads hlast (create_leads hfirst new) fun todo =>
            page_leads.of_pre fun w h => h
  | toggle id =>
      obtain ⟨_ | user⟩ := auth
      · exact Prog.Ensures.ret fun w h => h.ended hlast (.error _)
      · obtain rfl := hauth user rfl
        exact write_leads hlast (toggle_leads hfirst id) fun todo =>
          page_leads.of_pre fun w h => h
  | delete id =>
      obtain ⟨_ | user⟩ := auth
      · exact Prog.Ensures.ret fun w h => h.ended hlast (.error _)
      · obtain rfl := hauth user rfl
        exact write_leads hlast (delete_leads hfirst id) fun _ =>
          Prog.Ensures.ret fun w h => ⟨h.1.dated, h.2, .done h.1.list⟩
  | updateLocale locale =>
      intro w l done w' hready hexec hok
      have hkept : Ready state u past rows w' := by
        refine leads_outside (updateLocale_performs state auth headers locale) ?_
          w l done w' hready hexec hok
        intro e he
        cases he with
        | render => trivial
        | switch h => exact fun hwrites => by cases hwrites
        | select _ hin | get _ hin | set _ hin | del _ hin | session hin => cases hin
      exact hkept.ended hlast (.done (.of_eq rfl))
  | login | signup => cases hroute

/-- The user of the session, if any, is the client. -/
theorem fromSession_leads (authHash : String) :
    Leads services first last (Ready state u past rows)
      (AuthSession.fromSession (some ⟨u.uuid, authHash⟩)).run
      fun done w => Ready state u past rows w ∧
        ∀ auth, done = .ok auth → ∀ user, auth.user = some user → user.id = u := by
  intro w l done w' hready hexec hok
  have hkept : Ready state u past rows w' := by
    refine leads_outside (fromSession_performs _) ?_ w l done w' hready hexec hok
    rintro e ⟨data, _, rfl⟩ hwrites
    cases hwrites
  obtain ⟨cs, hrun, -⟩ := hexec.run fun _ => .plain 0 ⟨0⟩
  have hprotocol : Prog.Obeys (Requests.protocol state u) _ .quiet
      (AuthSession.fromSession (some ⟨u.uuid, authHash⟩)).run :=
    Requests.fromSession_protocol authHash
  obtain ⟨m, -, hauth⟩ := hprotocol.result
    (fun c e m w _ => Requests.protocol_answers services c w m e) cs w
  rw [hrun] at hauth
  exact ⟨hkept, hauth⟩

/-- Every request of the client, from a state in which what is cached for it is its list. -/
theorem serve_leads (hfirst : past < first) (hlast : past < last) (authHash : String)
    (request : Request) (hroute : Requests.isUserRoute request.route = true) :
    Leads services first last (Ready state u past rows)
      (serve state (some ⟨u.uuid, authHash⟩) request)
      (Ended state u last request.route rows) := by
  unfold serve
  refine (fromSession_leads authHash).bind fun done => ?_
  cases done with
  | error e =>
      refine Prog.Ensures.ret fun w h => ?_
      exact h.1.ended hlast (.refused rfl rfl (not_succeeded (by decide)))
  | ok auth =>
      intro w l reply w' hready
      have hhandle : Leads services first last (Ready state u past rows)
          (handle state auth request).run
          fun done => Ended state u last request.route rows (Handler.finish done) :=
        handle_leads hfirst hlast (hready.2 auth rfl) request hroute
      exact hhandle.bind (fun _ => Prog.Ensures.ret fun _ h => h) w l reply w' hready.1

end Handlers

end TodoRust.Todos
