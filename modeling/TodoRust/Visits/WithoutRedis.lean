import TodoRust.App.Effects
import TodoRust.Lib.Simulation
import TodoRust.Preferences.Resolution
import TodoRust.Requests.ReadYourWrites
import TodoRust.Storage.Part

/-!
# The site without Redis

The deployment that cannot reach Redis runs with its cache disabled. One visit after the
other, the cache is not to be seen: whatever a client is answered with the cache, it could
have been answered without. The entry of a user may be lost, unreadable or past its time,
and reading or storing it may fail; only a deletion that is lost would be noticed.
-/

namespace TodoRust.Visits
open Lib Domain Storage App Middleware Preferences Requests

/-- `Cache::new(None, …)`, when `build_redis_pool` has failed. -/
def withoutRedis (state : AppState) : AppState :=
  { state with cache := { state.cache with pool := false } }

/-! ### Lists and statements -/

section Statements
variable {pg : Postgres} {now : OffsetDateTime} {db : Database} {stmt : Statement}

/-- A list changes by a write of its owner only. -/
theorem listForUser_exec {u : UserId}
    (h : stmt.writesTodos = true → ∃ v, stmt.subject = some v ∧ v ≠ u.uuid) :
    listForUser (db.exec pg now stmt).2 u = listForUser db u := by
  cases hwrites : stmt.writesTodos with
  | false => simp only [listForUser, Database.selectTodos, Database.exec_todos hwrites]
  | true =>
      obtain ⟨v, hsubject, hv⟩ := h hwrites
      have hpart : (db.exec pg now stmt).2.part u.uuid = db.part u.uuid :=
        Database.exec_other hsubject hv
      have hrows : (db.exec pg now stmt).2.selectTodos u.uuid = db.selectTodos u.uuid := by
        rw [← Database.selectTodos_part, hpart, Database.selectTodos_part]
      rw [listForUser, hrows, listForUser]

end Statements

/-! ### What the cache may hold -/

/-- The entries that can be read are the lists of their users, but for one user whose
list may have changed since. -/
def FreshBut (state : AppState) (behind : Option UserId) (w : World) : Prop :=
  state.cache.pool = true → ∀ u, behind ≠ some u → ∀ entry todos,
    w.redis (todosCacheKey u) = some entry → state.todosJson.fromStr entry.raw = some todos →
      todos = listForUser w.db u

/-- The two sites have the same tables and sessions; the cache is fresh. -/
structure Alike (state : AppState) (behind : Option UserId)
    (s t : World × Option Session) : Prop where
  db : t.1.db = s.1.db
  session : t.2 = s.2
  fresh : FreshBut state behind s.1

/-- No deletion of an entry is lost: a `DEL` that fails has taken effect. -/
def Deletes (e : Effect) (c : Choice) : Prop :=
  ∀ key, e = .redisDel key → c.fault.isNone || c.tookEffect

instance (e : Effect) (c : Choice) : Decidable (Deletes e c) := by
  unfold Deletes
  cases e with
  | redisDel key =>
      exact decidable_of_iff (c.fault.isNone || c.tookEffect)
        ⟨fun h _ _ => h, fun h => h key rfl⟩
  | _ => exact .isTrue fun _ h => by cases h

section Effects
variable {services : Services} {state : AppState} {behind : Option UserId} {u : UserId}
variable {w : World} {s t : World × Option Session} {c : Choice}

theorem FreshBut.weaken (h : FreshBut state none w) (behind : Option UserId) :
    FreshBut state behind w := by
  intro hpool v _
  exact h hpool v (by simp)

theorem Alike.weaken (h : Alike state none s t) (behind : Option UserId) :
    Alike state behind s t :=
  ⟨h.db, h.session, h.fresh.weaken behind⟩

/-- A statement that leaves the other lists alone. -/
theorem FreshBut.sql {stmt : Statement} (h : FreshBut state behind w)
    (hstmt : stmt.writesTodos = true → ∃ v, behind = some v ∧ stmt.subject = some v.uuid) :
    FreshBut state behind (act services c (.sql stmt) w).2 := by
  rw [act_sql]
  cases c.fault with
  | some message => exact h
  | none =>
      intro hpool v hv entry todos hentry hread
      have hlist : listForUser (w.db.exec services.pg c.now stmt).2 v = listForUser w.db v := by
        apply listForUser_exec
        intro hwrites
        obtain ⟨v', rfl, hsubject⟩ := hstmt hwrites
        refine ⟨v'.uuid, hsubject, fun huuid => hv ?_⟩
        exact congrArg some (congrArg UserId.mk huuid)
      exact (h hpool v hv entry todos hentry hread).trans hlist.symm

/-- An entry with the list of its user. -/
theorem FreshBut.set (h : FreshBut state none w) {raw : String} (expiresAt : OffsetDateTime)
    (hraw : state.todosJson.toString (listForUser w.db u) = some raw) :
    FreshBut state none (w.setRedis (todosCacheKey u) (some { raw, expiresAt })) := by
  intro hpool v hv entry todos hentry hread
  rw [World.setRedis_redis] at hentry
  split at hentry
  · rename_i hkey
    obtain rfl := todosCacheKey_injective hkey
    obtain rfl := Option.some.inj hentry
    rw [state.todosJson.fromStr_toString hraw] at hread
    exact (Option.some.inj hread).symm
  · exact h hpool v hv entry todos hentry hread

/-- An entry that is gone is not behind. -/
theorem FreshBut.del (h : FreshBut state (some u) w) :
    FreshBut state none (w.setRedis (todosCacheKey u) none) := by
  intro hpool v _ entry todos hentry hread
  rw [World.setRedis_redis] at hentry
  split at hentry
  · cases hentry
  · rename_i hkey
    refine h hpool v (fun hv => hkey ?_) entry todos hentry hread
    rw [Option.some.inj hv]

/-- A fresh entry reads as the list. -/
theorem FreshBut.redisGet (h : FreshBut state none w) (hpool : state.cache.pool = true)
    {todos : List Todo} (hread : Cache.decode state.todosJson
      (act services c (.redisGet (todosCacheKey u)) w).1 = some todos) :
    todos = listForUser w.db u := by
  obtain ⟨entry, hentry, htodos⟩ := Cache.decode_redisGet _ hread
  exact h hpool u (by simp) entry todos hentry htodos

/-- The effects outside Redis that a visit performs: statements that write no list but
that of one user, and whatever stores nothing. -/
def OutsideRedis (behind : Option UserId) : Effect → Prop
  | .sql stmt => stmt.writesTodos = true → ∃ v, behind = some v ∧ stmt.subject = some v.uuid
  | .redisGet _ | .redisSet .. | .redisDel _ => False
  | .newUuid | .generateHash _ | .verifyPassword .. | .sessionLogin _ | .render .. => True

theorem command_self (c : Choice) (w : World) : (command c w w).2 = w := by
  unfold command
  cases c.fault with
  | none => rfl
  | some message =>
      cases c.tookEffect with
      | false => rfl
      | true => rfl

theorem command_reply (c : Choice) (w w' : World) : (command c w w).1 = (command c w' w').1 := by
  unfold command
  cases c.fault with
  | none => rfl
  | some message => rfl

/-- Such an effect is the same on both sites. -/
theorem Alike.actOn (services : Services) (c : Choice) {e : Effect} (h : Alike state behind s t)
    (he : OutsideRedis behind e) :
    (actOn services c e t).1 = (actOn services c e s).1 ∧
      Alike state behind (actOn services c e s).2 (actOn services c e t).2 := by
  obtain ⟨⟨db, redis⟩, session⟩ := s
  obtain ⟨⟨db', redis'⟩, session'⟩ := t
  obtain ⟨rfl, rfl, hfresh⟩ := h
  cases e with
  | sql stmt =>
      have hkept : FreshBut state behind (act services c (.sql stmt) ⟨db', redis⟩).2 :=
        hfresh.sql he
      simp only [Preferences.actOn, act_sql] at hkept ⊢
      cases hfault : c.fault with
      | some message => exact ⟨rfl, ⟨rfl, rfl, hfresh⟩⟩
      | none =>
          rw [hfault] at hkept
          exact ⟨rfl, ⟨rfl, rfl, hkept⟩⟩
  | redisGet | redisSet | redisDel => exact absurd he id
  | newUuid => exact ⟨rfl, ⟨rfl, rfl, hfresh⟩⟩
  | generateHash | verifyPassword =>
      simp only [Preferences.actOn, act]
      cases c.fault with
      | some message => exact ⟨rfl, ⟨rfl, rfl, hfresh⟩⟩
      | none => exact ⟨rfl, ⟨rfl, rfl, hfresh⟩⟩
  | sessionLogin | render =>
      simp only [Preferences.actOn, act, command_self]
      exact ⟨command_reply c _ _, ⟨rfl, rfl, hfresh⟩⟩

end Effects

/-! ### The handlers -/

section Handlers
variable (services : Services) (state : AppState)

/-- `p` on the site with the cache is matched by `q` on the one without. -/
abbrev Matches {α : Type} (pre : World × Option Session → World × Option Session → Prop)
    (p q : Action α) (post : α → World × Option Session → World × Option Session → Prop) : Prop :=
  Prog.Simulates (Preferences.actOn services) (Preferences.actOn services) Deletes pre p q post

/-- After a write that has failed the list is what it was. -/
def AlikeAfter (u : UserId) {α : Type} (done : Except StorageError α)
    (s t : World × Option Session) : Prop :=
  match done with
  | .ok _ => Alike state (some u) s t
  | .error _ => Alike state none s t

/-- Nothing is behind at the end. -/
def AlikeAtEnd {α : Type} (_ : α) (s t : World × Option Session) : Prop := Alike state none s t

variable {services state} {behind : Option UserId} {u : UserId} {α β : Type}

/-- What runs outside Redis is the same on both sites. -/
theorem matches_same {p : Action α} {allowed : Effect → Prop} {post : α → Unit → Prop}
    (hp : Prog.Obeys (.permitting allowed) post () p)
    (h : ∀ e, allowed e → OutsideRedis behind e) :
    Matches services (Alike state behind) p p fun _ => Alike state behind := by
  apply Prog.Simulates.refl_of_obeys hp
  · exact fun _ _ _ => trivial
  · exact fun _ e c s t he _ hrel => ⟨c, hrel.actOn services c (h e he)⟩

theorem listForUser_matches :
    Matches services (Alike state none) (TodoRepository.listForUser u).run
      (TodoRepository.listForUser u).run (AlikeAtEnd state) := by
  have hselect : Prog.Obeys (.permitting fun e => e = .sql (.selectTodos u.uuid)) Whatever ()
      (TodoRepository.listForUser u).run := by
    rw [TodoRepository.listForUser_program]
    exact ⟨rfl, fun _ _ => trivial⟩
  apply matches_same hselect
  rintro e rfl h
  cases h

/-- The cached list is the list. -/
theorem listTodosCached_matches :
    Matches services (Alike state none) (state.listTodosCached u).run
      ((withoutRedis state).listTodosCached u).run (AlikeAtEnd state) := by
  have hplain : ((withoutRedis state).listTodosCached u).run =
      (TodoRepository.listForUser u).run := by
    rw [AppState.listTodosCached_program]
    rfl
  rw [hplain, AppState.listTodosCached_program]
  cases hpool : state.cache.pool with
  | false =>
      rw [if_neg Bool.false_ne_true]
      exact listForUser_matches
  | true =>
      rw [if_pos rfl]
      apply Prog.Simulates.left (fun reply s t => Alike state none s t ∧
        ∀ todos, Cache.decode state.todosJson reply = some todos → todos = listForUser s.1.db u)
      · intro c s t _ hrel
        have hkept : (Preferences.actOn services c (.redisGet (todosCacheKey u)) s).2 = s := by
          unfold Preferences.actOn act
          cases c.fault with
          | none => rfl
          | some message => rfl
        rw [hkept]
        exact ⟨hrel, fun todos hread => hrel.fresh.redisGet hpool hread⟩
      · intro reply
        rw [TodoRepository.listForUser_program]
        cases Cache.decode state.todosJson reply with
        | some todos =>
            -- the plain site reads the list that was found
            apply Prog.Simulates.right (fun r s t => Alike state none s t ∧
              r = .ok (s.1.db.selectTodos u.uuid) ∧ todos = listForUser s.1.db u)
            · rintro s t ⟨hrel, htodos⟩
              have hreply : (Preferences.actOn services (.plain 0 ⟨0⟩)
                  (.sql (.selectTodos u.uuid)) t).1 = .ok (t.1.db.selectTodos u.uuid) := rfl
              refine ⟨.plain 0 ⟨0⟩, ⟨hrel.db, hrel.session, hrel.fresh⟩, ?_, htodos todos rfl⟩
              rw [hreply, hrel.db]
            · intro r
              apply Prog.Simulates.ret
              rintro s t ⟨hrel, rfl, rfl⟩
              exact ⟨rfl, hrel⟩
        | none =>
            apply Prog.Simulates.both (fun r s t => Alike state none s t ∧
              ∀ rows, r = .ok rows → rows.map rowToTodo = listForUser s.1.db u)
            · rintro c s t _ ⟨hrel, -⟩
              obtain ⟨hreply, hrel'⟩ := hrel.actOn services c
                (e := .sql (.selectTodos u.uuid)) fun h => by cases h
              refine ⟨c, hreply, hrel', fun rows hrows => ?_⟩
              simp only [Preferences.actOn, act_sql] at hrows ⊢
              cases hfault : c.fault with
              | some message =>
                  rw [hfault] at hrows
                  cases hrows
              | none =>
                  rw [hfault] at hrows
                  obtain rfl : s.1.db.selectTodos u.uuid = rows := Except.ok.inj hrows
                  rfl
            · intro r
              cases r with
              | error e =>
                  apply Prog.Simulates.ret
                  exact fun s t h => ⟨rfl, h.1⟩
              | ok rows =>
                  dsimp only
                  unfold AppState.backfill
                  cases hraw : state.todosJson.toString (rows.map rowToTodo) with
                  | none =>
                      apply Prog.Simulates.ret
                      exact fun s t h => ⟨rfl, h.1⟩
                  | some raw =>
                      apply Prog.Simulates.left (fun _ => Alike state none)
                      · rintro c s t _ ⟨hrel, hrows⟩
                        rw [hrows rows rfl] at hraw
                        have hset := hrel.fresh.set (c.now + 1000000 * (60 : Nat)) hraw
                        simp only [Preferences.actOn, act, command]
                        split
                        · split
                          · exact ⟨hrel.db, hrel.session, hset⟩
                          · exact hrel
                        · exact ⟨hrel.db, hrel.session, hset⟩
                      · intro _
                        apply Prog.Simulates.ret
                        exact fun s t h => ⟨rfl, h⟩

/-- The deletion, which is not lost, settles what is behind. -/
theorem invalidate_matches :
    Matches services (Alike state (some u)) (state.invalidateTodosCache u)
      ((withoutRedis state).invalidateTodosCache u) fun _ => Alike state none := by
  have hplain : (withoutRedis state).invalidateTodosCache u = .ret () := by
    rw [AppState.invalidateTodosCache_program]
    rfl
  rw [hplain, AppState.invalidateTodosCache_program]
  cases hpool : state.cache.pool with
  | false =>
      apply Prog.Simulates.ret
      intro s t h
      refine ⟨rfl, h.db, h.session, fun hon => ?_⟩
      rw [hpool] at hon
      cases hon
  | true =>
      apply Prog.Simulates.left (fun _ => Alike state none)
      · intro c s t hdel hrel
        have hdeleted := hrel.fresh.del
        have htook := hdel _ rfl
        simp only [Preferences.actOn, act, command]
        cases hfault : c.fault with
        | none => exact ⟨hrel.db, hrel.session, hdeleted⟩
        | some message =>
            rw [hfault] at htook
            have htook' : c.tookEffect = true := htook
            simp only [htook', if_true]
            exact ⟨hrel.db, hrel.session, hdeleted⟩
      · intro _
        apply Prog.Simulates.ret
        exact fun s t h => ⟨rfl, h⟩

/-- One statement of a user, which has changed nothing if the call reports an error. -/
theorem statement_matches {stmt : Statement}
    {read : Except SqlxError stmt.Rows → Except StorageError α}
    (hsubject : stmt.subject = some u.uuid)
    (hread : ∀ rows e, read (.ok rows) = .error e → stmt.commits rows = false) :
    Matches services (Alike state none) (.op (.sql stmt) fun r => .ret (read r))
      (.op (.sql stmt) fun r => .ret (read r)) (AlikeAfter state u) := by
  apply Prog.Simulates.both (fun r s t => Alike state (some u) s t ∧
    ∀ e, read r = .error e → Alike state none s t)
  · intro c s t _ hrel
    obtain ⟨hreply, hbehind⟩ := (hrel.weaken (some u)).actOn services c
      (e := .sql stmt) fun _ => ⟨u, rfl, hsubject⟩
    refine ⟨c, hreply, hbehind, fun e he => ?_⟩
    have hdb : (act services c (.sql stmt) s.1).2 = s.1 := by
      simp only [Preferences.actOn, act_sql] at he ⊢
      cases hfault : c.fault with
      | some message => rfl
      | none =>
          rw [hfault] at he
          have hkept : (s.1.db.exec services.pg c.now stmt).2 = s.1.db := by
            apply Database.exec_unchanged
            intro rows hrows
            rw [hrows] at he
            exact hread rows e he
          rw [hkept]
    have hsame : (Preferences.actOn services c (.sql stmt) s).2 = s := Prod.ext hdb rfl
    refine ⟨hbehind.db, hbehind.session, ?_⟩
    rw [hsame]
    exact hrel.fresh
  · intro r
    apply Prog.Simulates.ret
    rintro s t ⟨hbehind, hkept⟩
    refine ⟨rfl, ?_⟩
    cases hdone : read r with
    | ok a => exact hbehind
    | error e => exact hkept e hdone

/-- A repository call followed by `?`. -/
theorem call_matches {pre : World × Option Session → World × Option Session → Prop}
    {mid : Except StorageError α → World × Option Session → World × Option Session → Prop}
    {c c' : Call α} {f g : α → Handler β} (hc : Matches services pre c.run c'.run mid)
    (hf : ∀ a, Matches services (mid (.ok a)) (f a).run (g a).run (AlikeAtEnd state))
    (herr : ∀ e s t, mid (.error e) s t → Alike state none s t) :
    Matches services pre (Handler.call c >>= f).run (Handler.call c' >>= g).run
      (AlikeAtEnd state) := by
  rw [Handler.run_call_bind, Handler.run_call_bind]
  apply hc.bind
  intro done
  cases done with
  | ok a => exact hf a
  | error e =>
      apply Prog.Simulates.ret
      exact fun s t h => ⟨rfl, herr e s t h⟩

/-- A write, its invalidation, and the answer. -/
theorem write_matches {c : Call α} {answer : α → Handler Response}
    (hc : Matches services (Alike state none) c.run c.run (AlikeAfter state u))
    (hanswer : ∀ a, Matches services (Alike state none) (answer a).run (answer a).run
      (AlikeAtEnd state)) :
    Matches services (Alike state none)
      (do let a ← Handler.call c
          ExceptT.lift (state.invalidateTodosCache u)
          answer a : Handler Response).run
      (do let a ← Handler.call c
          ExceptT.lift ((withoutRedis state).invalidateTodosCache u)
          answer a : Handler Response).run (AlikeAtEnd state) := by
  apply call_matches hc
  · intro a
    rw [ExceptT.run_bind_lift, ExceptT.run_bind_lift]
    apply Prog.Simulates.bind invalidate_matches
    exact fun _ => hanswer a
  · exact fun _ _ _ h => h

theorem renderPage_matches {status : Rust.StatusCode} {headers : Rust.HeaderMap}
    {template : String} {page : Context} :
    Matches services (Alike state none) (renderPage status headers template page).run
      (renderPage status headers template page).run (AlikeAtEnd state) := by
  have hpage : Prog.Obeys (.permitting (Performs ⟨none⟩ .index)) Whatever ()
      (renderPage status headers template page).run := renderPage_performs
  apply matches_same hpage
  intro e he
  cases he with
  | render => trivial
  | select h | get h | set h => cases h
  | del _ hroute | session hroute => cases hroute

/-- A handler answers alike with and without the cache. -/
theorem handle_matches (services : Services) (state : AppState) (auth : AuthSession)
    (request : Request) :
    Matches services (Alike state none) (handle state auth request).run
      (handle (withoutRedis state) auth request).run (AlikeAtEnd state) := by
  obtain ⟨headers, context, route⟩ := request
  obtain ⟨user⟩ := auth
  have hfail : ∀ halt : Halt, Matches services (Alike state none)
      (.ret (.error halt : Except Halt Response)) (.ret (.error halt)) (AlikeAtEnd state) :=
    fun halt => Prog.Simulates.ret fun _ _ h => ⟨rfl, h⟩
  cases route with
  | index =>
      cases user with
      | none => exact Prog.Simulates.ret fun _ _ h => ⟨rfl, h⟩
      | some user =>
          apply call_matches listTodosCached_matches
          · exact fun todos => renderPage_matches
          · exact fun _ _ _ h => h
  | list =>
      cases user with
      | none => exact hfail _
      | some user =>
          simp only [handle, list, requireUser_some, expect_some]
          apply call_matches listTodosCached_matches
          · exact fun todos => renderPage_matches
          · exact fun _ _ _ h => h
  | create new =>
      cases user with
      | none => exact hfail _
      | some user =>
          simp only [handle, create, requireUser_some, expect_some]
          split
          · exact hfail _
          · apply write_matches
            · rw [TodoRepository.create_program]
              apply Prog.Simulates.both (fun _ => Alike state none)
              · exact fun c s t _ hrel => ⟨c, hrel.actOn services c (e := .newUuid) trivial⟩
              · intro id
                apply statement_matches rfl
                intro rows e he
                cases he
            · exact fun todo => renderPage_matches
  | toggle id =>
      cases user with
      | none => exact hfail _
      | some user =>
          simp only [handle, toggle, requireUser_some, expect_some]
          apply write_matches
          · rw [TodoRepository.toggle_program]
            exact statement_matches rfl fun _ _ => readFound_ok_error
          · exact fun todo => renderPage_matches
  | delete id =>
      cases user with
      | none => exact hfail _
      | some user =>
          simp only [handle, delete, requireUser_some]
          apply write_matches
          · rw [TodoRepository.delete_program]
            exact statement_matches rfl fun _ _ => readDeleted_ok_error
          · exact fun _ => Prog.Simulates.ret fun _ _ h => ⟨rfl, h⟩
  | updateLocale locale =>
      apply matches_same (updateLocale_performs state ⟨user⟩ headers locale)
      intro e he
      cases he with
      | render => trivial
      | switch h => exact fun hwrites => by cases hwrites
      | select _ hroute | get _ hroute | set _ hroute | del _ hroute | session hroute =>
          cases hroute
  | login creds =>
      apply matches_same (login_performs state ⟨user⟩ headers creds)
      intro e he
      cases he with
      | render | verify | session => trivial
      | lookup => exact fun hwrites => by cases hwrites
      | select _ hroute | get _ hroute | set _ hroute | del _ hroute => cases hroute
  | signup new =>
      apply matches_same (signup_performs state ⟨user⟩ headers new)
      intro e he
      cases he with
      | render | newUserId | hash | session => trivial
      | register => exact fun hwrites => by cases hwrites
      | select _ hroute | get _ hroute | set _ hroute | del _ hroute => cases hroute

theorem serve_matches (services : Services) (state : AppState) (session : Option Session)
    (request : Request) :
    Matches services (Alike state none) (serve state session request)
      (serve (withoutRedis state) session request) (AlikeAtEnd state) := by
  unfold serve
  apply Prog.Simulates.bind (matches_same (fromSession_performs session) ?_)
  · intro auth
    cases auth with
    | error e => exact Prog.Simulates.ret fun _ _ h => ⟨rfl, h⟩
    | ok auth =>
        apply (handle_matches services state auth request).bind
        exact fun done => Prog.Simulates.ret fun _ _ h => ⟨rfl, h⟩
  · rintro e ⟨data, _, rfl⟩ hwrites
    cases hwrites

end Handlers

/-! ### Visits -/

/-- What the client sends. -/
def sent : Visit → Nat × Rust.HeaderMap × Option (String × Route)
  | .request client headers cspNonce route _ => (client, headers, some (cspNonce, route))
  | .logout client headers _ _ => (client, headers, none)

section Visits
variable (services : Services) (state : AppState) (fluent : I18n.FluentLangneg)

/-- The steps that are taken for a visit. -/
def taken (site : Site) : Visit → List (Effect × Choice)
  | .request client headers cspNonce route cs =>
      let context := i18nMiddleware state fluent headers cspNonce
      (serve state (site.session client) ⟨headers, context, route⟩).steps
        (Preferences.actOn services) cs (site.world, site.session client)
  | .logout client _ cs _ =>
      (AuthSession.fromSession (site.session client)).run.steps (act services) cs site.world

/-- No visit of the history loses a deletion. -/
def KeepsDeletions (h : List (Site × Visit)) : Prop :=
  ∀ x ∈ h, ∀ y ∈ taken services state fluent x.1 x.2, Deletes y.1 y.2

/-- What a client is answered. -/
def answer (x : Site × Visit) : Except String Response := (visit services state fluent x.1 x.2).1

/-- The sites have the same tables and sessions; the cache of the first is fresh. -/
structure SameSite (site site' : Site) : Prop where
  db : site'.world.db = site.world.db
  session : site'.session = site.session
  fresh : FreshBut state none site.world

variable {services state fluent} {site site' : Site}

theorem redirectAfterForm_ret (headers : Rust.HeaderMap) (target : String) :
    ∃ r, (redirectAfterForm headers target).run = .ret r := by
  unfold redirectAfterForm
  split
  · dsimp only
    split
    · exact ⟨_, rfl⟩
    · exact ⟨_, rfl⟩
  · unfold redirectTo
    cases Rust.HeaderValue.fromStr target with
    | none => exact ⟨_, rfl⟩
    | some location => exact ⟨_, rfl⟩

/-- A logout touches nothing but the session. -/
theorem logout_ret (headers : Rust.HeaderMap) (flushed : Except String Unit) :
    ∃ r, (logout headers flushed).run = .ret r := by
  cases flushed with
  | error e => exact ⟨_, rfl⟩
  | ok u => exact redirectAfterForm_ret headers "/login"

/-- The user is loaded from the tables. -/
theorem fromSession_db (services : Services) (session : Option Session) (cs : Nat → Choice)
    {w w' : World} (h : w'.db = w.db) :
    ((AuthSession.fromSession session).run.run (act services) cs w').1 =
      ((AuthSession.fromSession session).run.run (act services) cs w).1 := by
  cases session with
  | none => rfl
  | some data =>
      simp only [AuthSession.fromSession, ExceptT.run_bind, UserRepository.findById_program,
        Prog.op_bind, Prog.ret_bind, Prog.run_op, act_sql, Database.exec_selectUser]
      cases (cs 0).fault with
      | some message => rfl
      | none =>
          rw [h]
          rfl

/-- A visit is answered alike on both sites. -/
theorem visit_matches (hsame : SameSite state site site') (v : Visit)
    (hdel : ∀ y ∈ taken services state fluent site v, Deletes y.1 y.2) :
    ∃ v', sent v' = sent v ∧
      answer services (withoutRedis state) fluent (site', v') =
        answer services state fluent (site, v) ∧
      SameSite state (visit services state fluent site v).2
        (visit services (withoutRedis state) fluent site' v').2 := by
  obtain ⟨world, session⟩ := site
  obtain ⟨world', session'⟩ := site'
  obtain ⟨hdb, rfl, hfresh⟩ := hsame
  cases v with
  | request client headers cspNonce route cs =>
      have halike : Alike state none (world, session' client) (world', session' client) :=
        ⟨hdb, rfl, hfresh⟩
      obtain ⟨cs', hanswer, hrel⟩ := (serve_matches services state (session' client)
        ⟨headers, i18nMiddleware state fluent headers cspNonce, route⟩).run halike cs hdel
      refine ⟨.request client headers cspNonce route cs', rfl, hanswer, hrel.db, ?_, hrel.fresh⟩
      exact congrArg (Function.update session' client) hrel.session
  | logout client headers cs flush =>
      have hloaded := fromSession_db services (session' client) cs hdb
      refine ⟨.logout client headers cs flush, rfl, ?_⟩
      simp only [answer, visit, hloaded]
      split
      · exact ⟨rfl, hdb, rfl, hfresh⟩
      · obtain ⟨r, hr⟩ := logout_ret headers (command flush world world).1
        rw [command_reply flush world' world, hr]
        exact ⟨rfl, hdb, rfl, hfresh⟩

/-- The step lemma, over a history: the plain site has come as far, with the same visits,
answers, tables and sessions. -/
theorem run_matches {h : List (Site × Visit)} {site₀ : Site}
    (run : Run (step services state fluent) site₀ h site)
    (hfresh : FreshBut state none site₀.world) (hdel : KeepsDeletions services state fluent h) :
    ∃ h' site', Run (step services (withoutRedis state) fluent) site₀ h' site' ∧
      h'.map (sent ·.2) = h.map (sent ·.2) ∧
      h'.map (answer services (withoutRedis state) fluent) =
        h.map (answer services state fluent) ∧ SameSite state site site' := by
  induction run with
  | nil => exact ⟨[], site₀, .nil, rfl, rfl, rfl, rfl, hfresh⟩
  | @snoc h site v site₁ _ hstep ih =>
      obtain ⟨h', site', run', hsent, hanswers, hsame⟩ :=
        ih fun x hx => hdel x (List.mem_append_left _ hx)
      obtain ⟨v', hsent', hanswer, hafter⟩ := visit_matches hsame v
        (hdel (site, v) (List.mem_append_right _ (List.mem_singleton.mpr rfl)))
      obtain rfl := Option.some.inj hstep
      refine ⟨h' ++ [(site', v')], _, run'.snoc rfl, ?_, ?_, hafter⟩
      · simp only [List.map_append, hsent, List.map_singleton, hsent']
      · simp only [List.map_append, hanswers, List.map_singleton, hanswer]

end Visits

/-- As long as no deletion is lost, the clients of the cached site are answered as those
of the site without Redis can be, and leave the same tables and sessions behind, whatever
fails: a statement that does has not run, a command may have. -/
theorem without_redis_same (services : Services) (state : AppState) (fluent : I18n.FluentLangneg)
    {h : List (Site × Visit)} {site₀ site : Site}
    (run : Run (step services state fluent) site₀ h site)
    (hfresh : FreshBut state none site₀.world) (hdel : KeepsDeletions services state fluent h) :
    ∃ h' site', Run (step services (withoutRedis state) fluent) site₀ h' site' ∧
      h'.map (sent ·.2) = h.map (sent ·.2) ∧
      h'.map (answer services (withoutRedis state) fluent) =
        h.map (answer services state fluent) ∧
      site'.world.db = site.world.db ∧ site'.session = site.session := by
  obtain ⟨h', site', run', hsent, hanswers, hsame⟩ := run_matches run hfresh hdel
  exact ⟨h', site', run', hsent, hanswers, hsame.db, hsame.session⟩

/-- Ann logs in and lists her todos twice, the second time from the cache; then she
writes one down, and lists them again. -/
def annLists : List Visit :=
  ([.login ⟨"ann@example.org", "correct horse", none⟩, .list, .list, .create ⟨"milk"⟩, .list] :
    List Route).map fun route => .request 0 [] "" route fun _ => .plain 0 ⟨7⟩

/-- Requests without failing steps lose no deletion. -/
theorem keepsDeletions_of_record {visits : List Visit} {site₀ site : Site}
    {h : List (Site × Visit)} {services : Services} {state : AppState}
    {fluent : I18n.FluentLangneg}
    (hr : Run.record (step services state fluent) site₀ visits = some (h, site))
    (hvisits : ∀ v ∈ visits, ∃ client headers cspNonce route cs,
      v = .request client headers cspNonce route cs ∧ ∀ n, (cs n).fault = none) :
    KeepsDeletions services state fluent h := by
  intro x hx y hy key _
  obtain ⟨client, headers, cspNonce, route, cs, hv, hfault⟩ := Run.forall_record hr hvisits x hx
  rw [hv] at hy
  obtain ⟨n, hn⟩ := Prog.steps_choice _ _ _ y hy
  rw [hn, hfault n]
  rfl

/-- Without Redis she could have been answered the same. -/
theorem without_redis_same_ann : ∃ h site h' site',
    Run.record (step .plain .plain .plain) plainSite annLists = some (h, site) ∧
    Run (step .plain (withoutRedis .plain) .plain) plainSite h' site' ∧
    h'.map (answer .plain (withoutRedis .plain) .plain) = h.map (answer .plain .plain .plain) := by
  have hrecord : Run.record (step .plain .plain .plain) plainSite annLists = some (_, _) := rfl
  have hfresh : FreshBut .plain none plainSite.world := by
    intro _ u _ entry todos hentry
    cases hentry
  have hdel := keepsDeletions_of_record hrecord <| by
    intro v hv
    obtain ⟨route, _, rfl⟩ := List.mem_map.mp hv
    exact ⟨0, [], "", route, _, rfl, fun _ => rfl⟩
  obtain ⟨h', site', run', _, hanswers, _⟩ :=
    without_redis_same .plain .plain .plain (Run.of_record annLists hrecord) hfresh hdel
  exact ⟨_, _, h', site', hrecord, run', hanswers⟩

end TodoRust.Visits
