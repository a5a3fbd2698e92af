import TodoRust.Requests.Isolation
import TodoRust.Visits.Sessions

/-!
# Whose rows an access touches

Every statement that names an account by its id and every command on its cache entry is
sent for a client whose session is for that account, and so for one that has shown that the
account is its own. A login looks an account up by its address before there is a session,
and a signup inserts one. What belongs to an account is left alone by everyone else.
-/

namespace TodoRust.Visits
open Lib Domain Storage App Middleware Preferences Requests

/-- The effect is about the rows or the cache entry of the account with this id. The lookup
by an address and the insert of an account name no id that is there. -/
def Touches (u : UserId) : Effect → Prop
  | .sql stmt => stmt.subject = some u.uuid
  | .redisGet key | .redisSet key _ _ | .redisDel key => key = todosCacheKey u
  | .newUuid | .generateHash _ | .verifyPassword _ _ | .sessionLogin _ | .render _ _ => False

section Effects
variable {services : Services} {u : UserId} {c : Choice} {e : Effect} {w : World}

/-- A handler touches the session's account only. -/
theorem performs_touches {auth : AuthSession} {route : Route} (h : Performs auth route e)
    (ht : Touches u e) : ∃ user, auth.user = some user ∧ user.id = u := by
  cases h with
  | select huser | insert huser | toggle huser | delete huser | switch huser =>
      exact ⟨_, huser, congrArg UserId.mk (Option.some.inj ht)⟩
  | get huser | set huser | del huser => exact ⟨_, huser, todosCacheKey_injective ht⟩
  | render | newTodoId | verify | newUserId | hash | session => exact absurd ht id
  | lookup | register => cases ht

/-- A statement about another account, or about none, leaves the part of an account that is
there alone. -/
theorem exec_untouched {pg : Postgres} {now : OffsetDateTime} {db : Database} {stmt : Statement}
    (hstmt : stmt.subject ≠ some u.uuid) (hrow : ∃ row ∈ db.users, row.id = u.uuid) :
    (db.exec pg now stmt).2.part u.uuid = db.part u.uuid := by
  cases hsubject : stmt.subject with
  | some v =>
      apply Database.exec_other hsubject
      rintro rfl
      exact hstmt hsubject
  | none =>
      rcases Database.exec_cases pg now db stmt with hexec | hexec
      · rw [hexec]
        cases stmt with
        | selectUserByEmail email => rfl
        | insertUser id email hash =>
            simp only [Database.perform, Database.insertUser]
            split
            · rfl
            · rename_i hid
              split
              · rfl
              · -- the new row has an id of its own
                obtain ⟨row, hmem, hrow⟩ := hrow
                have hne : id ≠ u.uuid := by
                  rintro rfl
                  exact hid (List.any_eq_true.mpr ⟨row, hmem, beq_iff_eq.mpr hrow⟩)
                simp [Database.part, List.filter_append, hne]
        | _ => cases hsubject
      · rw [hexec]

/-- What an effect does not touch, it leaves alone. -/
theorem act_untouched (he : ¬ Touches u e) (hrow : ∃ row ∈ w.db.users, row.id = u.uuid) :
    part u (act services c e w).2 = part u w := by
  have hcommand : ∀ {key : String} {entry : Option RedisEntry}, key ≠ todosCacheKey u →
      part u (command c w (w.setRedis key entry)).2 = part u w := by
    intro key entry hkey
    unfold command
    cases c.fault with
    | none => exact setRedis_other hkey
    | some message =>
        cases c.tookEffect with
        | false => rfl
        | true => exact setRedis_other hkey
  cases e with
  | sql stmt =>
      rw [act_sql]
      cases c.fault with
      | some message => rfl
      | none => simp only [part, exec_untouched he hrow]
  | redisSet key raw seconds => exact hcommand he
  | redisDel key => exact hcommand he
  | newUuid => rfl
  | redisGet | generateHash | verifyPassword =>
      unfold act
      cases c.fault with
      | none => rfl
      | some message => rfl
  | sessionLogin | render => exact congrArg (part u) (command_self c w)

theorem part_row {w w' : World} (h : part u w' = part u w)
    (hrow : ∃ row ∈ w.db.users, row.id = u.uuid) : ∃ row ∈ w'.db.users, row.id = u.uuid := by
  obtain ⟨row, hmem, hid⟩ := hrow
  have husers : w'.db.users.filter (·.id == u.uuid) = w.db.users.filter (·.id == u.uuid) :=
    congrArg (fun w => w.db.users) h
  have hpart : row ∈ w'.db.users.filter (·.id == u.uuid) := by
    rw [husers]
    exact List.mem_filter.mpr ⟨hmem, beq_iff_eq.mpr hid⟩
  exact ⟨row, List.mem_of_mem_filter hpart, hid⟩

/-- Steps that do not touch an account leave its part alone. -/
theorem exec_part_kept {α : Type} {p : Action α} {s s' : World × Option Session}
    {l : List (Effect × Choice)} {a : α} (h : Prog.Exec (Preferences.actOn services) p s l a s')
    (hl : ∀ x ∈ l, ¬ Touches u x.1) (hrow : ∃ row ∈ s.1.db.users, row.id = u.uuid) :
    part u s'.1 = part u s.1 := by
  apply h.invariant (I := fun t => part u t.1 = part u s.1) ?_ rfl
  intro x hx t ht
  exact (act_untouched (hl x hx) (part_row ht hrow)).trans ht

end Effects

/-! ### Accesses -/

section Accesses
variable (services : Services) (state : AppState) (fluent : I18n.FluentLangneg)
variable (enabledEmail : Option String)

/-- The steps of an access. -/
def accessSteps (site : Site) : Access → List (Effect × Choice)
  | .visit v => taken services state fluent site v
  | .autoLogin client cs =>
      (serveAutoLogin enabledEmail (site.session client)).steps (Preferences.actOn services) cs
        (site.world, site.session client)

variable {services state fluent enabledEmail} {site : Site} {u : UserId}

theorem autoLogin_permitted {s s' : World × Option Session} {l : List (Effect × Choice)}
    {done : Except Halt Response} (h : Prog.Exec (Preferences.actOn services)
      (Router.autoLogin enabledEmail).run s l done s') : ∀ x ∈ l, ¬ Touches u x.1 := by
  have hobeys : Prog.Obeys (.permitting fun e => ¬ Touches u e) Whatever ()
      (Router.autoLogin enabledEmail).run := by
    cases enabledEmail with
    | none => trivial
    | some email =>
        unfold Router.autoLogin
        dsimp only
        rw [Handler.run_call_bind, UserRepository.findByEmail_program]
        refine ⟨(fun ht => by cases ht), fun r _ => ?_⟩
        match r with
        | .error e => trivial
        | .ok none => trivial
        | .ok (some row) =>
            refine ⟨id, fun reply _ => ?_⟩
            cases reply with
            | error e => trivial
            | ok _ =>
                show Prog.Obeys (.permitting fun e => ¬ Touches u e) Whatever ()
                  (redirectTo "/").run
                unfold redirectTo
                cases Rust.HeaderValue.fromStr "/" with
                | none => trivial
                | some location => trivial
  exact h.permitted hobeys

/-- Loading a session's user touches the account of the session. -/
theorem load_touches {session : Option Session} {e : Effect}
    (he : ∃ data, session = some data ∧ e = .sql (.selectUser data.userId)) (ht : Touches u e) :
    ∃ data, session = some data ∧ data.userId = u.uuid := by
  obtain ⟨data, hdata, rfl⟩ := he
  exact ⟨data, hdata, Option.some.inj ht⟩

theorem serveAutoLogin_touches {session : Option Session} {s s' : World × Option Session}
    {l : List (Effect × Choice)} {r : Except String Response}
    (h : Prog.Exec (Preferences.actOn services) (serveAutoLogin enabledEmail session) s l r s')
    {x : Effect × Choice} (hx : x ∈ l) (ht : Touches u x.1) :
    ∃ data, session = some data ∧ data.userId = u.uuid := by
  obtain ⟨l₁, l₂, loaded, t, rfl, hload, hrest⟩ := h.bind_inv
  rcases List.mem_append.mp hx with hx₁ | hx₂
  · exact load_touches (hload.permitted (fromSession_performs session) x hx₁) ht
  · cases loaded with
    | error e =>
        cases hrest
        cases hx₂
    | ok auth =>
        obtain ⟨l₃, l₄, done, t', rfl, hhandle, hfinish⟩ := hrest.bind_inv
        cases hfinish
        rw [List.append_nil] at hx₂
        exact absurd ht (autoLogin_permitted hhandle x hx₂)

/-- The account that is touched is the one of the session. -/
theorem accessSteps_touches {a : Access} {x : Effect × Choice}
    (hx : x ∈ accessSteps services state fluent enabledEmail site a) (ht : Touches u x.1) :
    ∃ data, site.session a.client = some data ∧ data.userId = u.uuid := by
  cases a with
  | visit v =>
      cases v with
      | request client headers cspNonce route cs =>
          obtain ⟨l₁, l₂, hl, hload, hrest⟩ := serve_exec (Prog.exec_run
            (Preferences.actOn services) (serve state (site.session client)
              ⟨headers, i18nMiddleware state fluent headers cspNonce, route⟩) cs
            (site.world, site.session client))
          have hmem : x ∈ l₁ ++ l₂ := hl ▸ hx
          rcases List.mem_append.mp hmem with hx₁ | hx₂
          · exact load_touches (hload x hx₁) ht
          · obtain ⟨rfl, _⟩ | ⟨done, hhandle⟩ := hrest
            · cases hx₂
            · obtain ⟨user, huser, rfl⟩ :=
                performs_touches (hhandle.permitted (handle_performs state _ _) x hx₂) ht
              obtain ⟨row, hrow, rfl⟩ := Option.map_eq_some_iff.mp huser
              obtain ⟨data, hdata, hfound⟩ := Option.bind_eq_some_iff.mp hrow
              exact ⟨data, hdata,
                (Database.selectUser_id (Option.filter_eq_some_iff.mp hfound).1).symm⟩
      | logout client headers cs flush =>
          have hexec := Prog.exec_run (act services)
            (AuthSession.fromSession (site.session client)).run cs site.world
          exact load_touches (hexec.permitted (fromSession_performs _) x hx) ht
  | autoLogin client cs => exact serveAutoLogin_touches (Prog.exec_run ..) hx ht

/-- The step lemma: an access in a session of another account, or in none, leaves the
account alone. -/
theorem access_part {a : Access}
    (hsession : ∀ data, site.session a.client = some data → data.userId ≠ u.uuid)
    (hrow : ∃ row ∈ site.world.db.users, row.id = u.uuid) :
    part u (access services state fluent enabledEmail site a).world = part u site.world := by
  have hsteps : ∀ x ∈ accessSteps services state fluent enabledEmail site a, ¬ Touches u x.1 := by
    intro x hx ht
    obtain ⟨data, hdata, hid⟩ := accessSteps_touches hx ht
    exact hsession data hdata hid
  cases a with
  | visit v =>
      cases v with
      | request client headers cspNonce route cs =>
          exact exec_part_kept (Prog.exec_run ..) hsteps hrow
      | logout client headers cs flush =>
          simp only [access, visit]
          split
          · rfl
          · rfl
  | autoLogin client cs => exact exec_part_kept (Prog.exec_run ..) hsteps hrow

end Accesses

/-- In every site that is reached, what is read or written of an account by its id is read or
written in a session of that account, which was opened by an access that authenticates. -/
theorem touched_by_owner (services : Services) (state : AppState) (fluent : I18n.FluentLangneg)
    (enabledEmail : Option String) {h : List (Site × Access)} {site₀ site : Site}
    (run : Run (accessStep services state fluent enabledEmail) site₀ h site)
    (hnone : ∀ client, site₀.session client = none) (a : Access) (u : UserId)
    (ht : ∃ x ∈ accessSteps services state fluent enabledEmail site a, Touches u x.1) :
    ∃ k, OpenedAt services state fluent enabledEmail h site a.client u.uuid k := by
  obtain ⟨x, hx, ht⟩ := ht
  obtain ⟨data, hdata, hid⟩ := accessSteps_touches hx ht
  rw [← hid]
  exact run_opened run hnone hdata

/-- When Ann lists her todos, she has logged in before. -/
theorem touched_by_owner_ann : ∃ h site k,
    Run.record (accessStep .plain .plain .plain none) plainSite annLogsIn = some (h, site) ∧
    OpenedAt .plain .plain .plain none h site 0 ⟨1⟩ k := by
  have hrecord : Run.record (accessStep .plain .plain .plain none) plainSite annLogsIn =
      some (_, _) := rfl
  obtain ⟨k, hk⟩ := touched_by_owner .plain .plain .plain none (Run.of_record annLogsIn hrecord)
    (fun _ => rfl) (.visit (.request 0 [] "" .list fun _ => .plain 0 ⟨7⟩)) ⟨⟨1⟩⟩
    ⟨(.sql (.selectUser ⟨1⟩), .plain 0 ⟨7⟩), List.mem_cons_self .., rfl⟩
  exact ⟨_, _, k, hrecord, hk⟩

/-- While no client uses a session of an account, its row, its todos and its cache entry
stay as they are, whatever the others do and whatever fails. -/
theorem untouched_by_others (services : Services) (state : AppState) (fluent : I18n.FluentLangneg)
    (enabledEmail : Option String) {h : List (Site × Access)} {site₀ site : Site}
    (run : Run (accessStep services state fluent enabledEmail) site₀ h site) (u : UserId)
    (hrow : ∃ row ∈ site₀.world.db.users, row.id = u.uuid)
    (hothers : ∀ x ∈ h, ∀ data, x.1.session x.2.client = some data → data.userId ≠ u.uuid) :
    part u site.world = part u site₀.world := by
  induction run with
  | nil => rfl
  | @snoc h site a site' _ hstep ih =>
      obtain rfl := Option.some.inj hstep
      have hkept := ih fun x hx => hothers x (List.mem_append_left _ hx)
      have hlast := hothers (site, a) (List.mem_append_right _ (List.mem_singleton.mpr rfl))
      exact (access_part hlast (part_row hkept hrow)).trans hkept

/-- Bob signs up. -/
def bobSignsUp : List Access :=
  [.visit (.request 1 [] "" (.signup ⟨"bob@example.org", "battery staple"⟩)
    fun _ => .plain 0 ⟨2⟩)]

/-- That leaves what belongs to Ann alone. -/
theorem untouched_by_others_bob : ∃ h site,
    Run.record (accessStep .plain .plain .plain none) plainSite bobSignsUp = some (h, site) ∧
    site.world.db.users.length = 2 ∧ part ⟨⟨1⟩⟩ site.world = part ⟨⟨1⟩⟩ plainSite.world := by
  have hrecord : Run.record (accessStep .plain .plain .plain none) plainSite bobSignsUp =
      some (_, _) := rfl
  refine ⟨_, _, hrecord, rfl, ?_⟩
  apply untouched_by_others .plain .plain .plain none (Run.of_record bobSignsUp hrecord)
  · exact ⟨annRow, List.mem_singleton.mpr rfl, rfl⟩
  · intro x hx data hdata
    obtain rfl := List.mem_singleton.mp hx
    cases hdata

end TodoRust.Visits
