import TodoRust.Todos.Answers

/-!
# The list a client keeps

A page loads the list once. What a later request answers is swapped into it: the row of
a new todo goes in front, the row of a toggled one takes the place of the old row, and a
deleted one leaves nothing there. An error has no row, and takes the place of a row all
the same. The rows on the screen are those of the table as long as the requests succeed
and no deletion of the cached list is lost.
-/

namespace TodoRust.Todos
open Lib Domain Storage App

/-! ### Screens -/

/-- The choices made for one request, at times from `first` to `last`. -/
structure Draws where
  choice : Nat → Choice
  first : OffsetDateTime
  last : OffsetDateTime
  timed : ∀ n, first ≤ (choice n).now ∧ (choice n).now ≤ last

/-- What is done for somebody else, or for nobody in particular. -/
def IsForeign (u : UserId) : Effect → Prop
  | .sql stmt => stmt.subject ≠ some u.uuid
  | .redisGet key | .redisSet key .. | .redisDel key => key ≠ todosCacheKey u
  | .newUuid | .generateHash _ | .verifyPassword .. | .sessionLogin _ | .render .. => True

instance (u : UserId) : DecidablePred (IsForeign u)
  | .sql stmt => inferInstanceAs (Decidable (stmt.subject ≠ some u.uuid))
  | .redisGet key | .redisSet key .. | .redisDel key =>
      inferInstanceAs (Decidable (key ≠ todosCacheKey u))
  | .newUuid | .generateHash _ | .verifyPassword .. | .sessionLogin _ | .render .. =>
      inferInstanceAs (Decidable True)

inductive ListEvent
  /-- A request of the client, which runs to its end. -/
  | request (job : Requests.UserRequest) (draws : Draws)
  /-- A request that is answered with an error before it gets to its handler. -/
  | refused (route : Route)
  | elsewhere (e : Effect) (c : Choice)
  /-- Redis loses an entry. -/
  | dropped (key : String)

/-- The world, the time of the last event, and the rows on the screen of a client. -/
structure Screen where
  world : World
  last : OffsetDateTime
  rows : List Todo

section Step
variable (services : Services) (state : AppState) (u : UserId)

/-- What the client's session sends to its handler. -/
def ask (job : Requests.UserRequest) : Action (Except String Response) :=
  serve state (some ⟨u.uuid, job.authHash⟩) job.request

/-- The answer to a request on a screen. -/
def reply (s : Screen) (job : Requests.UserRequest) (draws : Draws) : Except String Response :=
  ((ask state u job).run (act services) draws.choice s.world).1

/-- One event, at a later time than the last one. -/
def Screen.step (s : Screen) : ListEvent → Option Screen
  | .request job draws =>
      if s.last < draws.first then
        let done := (ask state u job).run (act services) draws.choice s.world
        some ⟨done.2, draws.last, swap (shown done.1) s.rows job.request.route⟩
      else none
  | .refused route => some { s with rows := swap [] s.rows route }
  | .elsewhere e c =>
      if s.last < c.now ∧ IsForeign u e then some ⟨(act services c e s.world).2, c.now, s.rows⟩
      else none
  | .dropped key => some { s with world := s.world.setRedis key none }

/-- A request that is answered with a 2xx, or none of this client. -/
def Succeeds (x : Screen × ListEvent) : Prop :=
  match x.2 with
  | .request job draws => Succeeded (reply services state u x.1 job draws)
  | .refused _ => False
  | .elsewhere .. | .dropped _ => True

/-- No deletion of the cached list is lost: a `DEL` that fails has taken effect. -/
def KeepsDeletions (x : Screen × ListEvent) : Prop :=
  match x.2 with
  | .request job draws => ∀ y ∈ (ask state u job).steps (act services) draws.choice x.1.world,
      Visits.Deletes y.1 y.2
  | .refused _ | .elsewhere .. | .dropped _ => True

end Step

def toggles : ListEvent → Bool
  | .request job _ => isToggle job.request.route
  | .refused route => isToggle route
  | .elsewhere .. | .dropped _ => false

/-! ### Runs -/

section Runs
variable {services : Services} {state : AppState} {u : UserId} {s s' : Screen}

/-- What an event can do. -/
inductive StepCases (services : Services) (state : AppState) (u : UserId) (s : Screen) :
    ListEvent → Screen → Prop
  | request (job : Requests.UserRequest) (draws : Draws) (hnow : s.last < draws.first) :
      StepCases services state u s (.request job draws)
        ⟨((ask state u job).run (act services) draws.choice s.world).2, draws.last,
          swap (shown (reply services state u s job draws)) s.rows job.request.route⟩
  | refused (route : Route) :
      StepCases services state u s (.refused route) { s with rows := swap [] s.rows route }
  | elsewhere (e : Effect) (c : Choice) (hnow : s.last < c.now) (he : IsForeign u e) :
      StepCases services state u s (.elsewhere e c) ⟨(act services c e s.world).2, c.now, s.rows⟩
  | dropped (key : String) :
      StepCases services state u s (.dropped key) { s with world := s.world.setRedis key none }

theorem Screen.step_cases {e : ListEvent} (hs : s.step services state u e = some s') :
    StepCases services state u s e s' := by
  cases e with
  | request job draws =>
      dsimp only [Screen.step] at hs
      split at hs
      · rename_i hnow
        rw [← Option.some.inj hs]
        exact .request job draws hnow
      · cases hs
  | refused route =>
      rw [← Option.some.inj hs]
      exact .refused route
  | elsewhere e c =>
      dsimp only [Screen.step] at hs
      split at hs
      · rename_i hnow
        rw [← Option.some.inj hs]
        exact .elsewhere e c hnow.1 hnow.2
      · cases hs
  | dropped key =>
      rw [← Option.some.inj hs]
      exact .dropped key

/-- What somebody else does leaves the list alone, and what is cached of it. -/
theorem foreign_kept (services : Services) (w : World) {e : Effect} (c : Choice)
    (he : IsForeign u e) :
    listed (act services c e w).2.db u = listed w.db u ∧
      (act services c e w).2.redis (todosCacheKey u) = w.redis (todosCacheKey u) := by
  have hother {key : String} (hkey : key ≠ todosCacheKey u) (entry : Option RedisEntry) :
      listed (w.setRedis key entry).db u = listed w.db u ∧
        (w.setRedis key entry).redis (todosCacheKey u) = w.redis (todosCacheKey u) := by
    refine ⟨rfl, ?_⟩
    rw [World.setRedis_redis, if_neg hkey.symm]
  cases e with
  | sql stmt =>
      refine ⟨?_, congrFun (act_sql_redis services c stmt w) _⟩
      rw [act_sql]
      cases c.fault with
      | some message => rfl
      | none =>
          cases hsubject : stmt.subject with
          | some v =>
              apply Visits.listForUser_exec
              exact fun _ => ⟨v, hsubject, fun hv => he (hsubject.trans (congrArg some hv))⟩
          | none =>
              -- only accounts are created or looked up without a subject
              apply Visits.listForUser_exec
              intro hwrites
              cases stmt with
              | insertUser | selectUserByEmail => cases hwrites
              | selectTodos | insertTodo | selectTodo | updateTodo | toggleTodo | deleteTodo
              | selectUser | updatePreferences => cases hsubject
  | redisGet | generateHash | verifyPassword =>
      unfold act
      cases c.fault with
      | some message => exact ⟨rfl, rfl⟩
      | none => exact ⟨rfl, rfl⟩
  | redisSet key raw seconds =>
      exact command_cases (P := fun w' => listed w'.db u = listed w.db u ∧
        w'.redis (todosCacheKey u) = w.redis (todosCacheKey u)) ⟨rfl, rfl⟩ (hother he _)
  | redisDel key =>
      exact command_cases (P := fun w' => listed w'.db u = listed w.db u ∧
        w'.redis (todosCacheKey u) = w.redis (todosCacheKey u)) ⟨rfl, rfl⟩ (hother he _)
  | newUuid => exact ⟨rfl, rfl⟩
  | sessionLogin | render =>
      exact command_cases (P := fun w' => listed w'.db u = listed w.db u ∧
        w'.redis (todosCacheKey u) = w.redis (todosCacheKey u)) ⟨rfl, rfl⟩ ⟨rfl, rfl⟩

theorem act_dated {w : World} {last : OffsetDateTime} (h : Dated w.db last) {c : Choice}
    (hnow : last < c.now) (e : Effect) : Dated (act services c e w).2.db c.now := by
  by_cases hsql : ∃ stmt, e = .sql stmt
  · obtain ⟨stmt, rfl⟩ := hsql
    exact act_sql_dated h hnow stmt
  · rw [act_db fun stmt he => hsql ⟨stmt, he⟩]
    exact h.mono hnow.le

/-- Every row on the screen is the row in the table, none is there twice, and what is
cached for the client is its list. -/
structure Kept (state : AppState) (u : UserId) (s : Screen) : Prop where
  dated : Dated s.world.db s.last
  cached : Cached state u s.world
  rows : s.rows.Subperm (listed s.world.db u)

/-- What a request does on a screen. -/
theorem Kept.request (h : Kept state u s) {job : Requests.UserRequest} {draws : Draws}
    (hnow : s.last < draws.first)
    (hdel : KeepsDeletions services state u (s, .request job draws)) :
    Ended state u draws.last job.request.route (listed s.world.db u)
      (reply services state u s job draws)
      ((ask state u job).run (act services) draws.choice s.world).2 := by
  have hlast : draws.first ≤ draws.last := (draws.timed 0).1.trans (draws.timed 0).2
  have hready : Ready state u s.last (listed s.world.db u) s.world := ⟨h.dated, rfl, h.cached⟩
  refine (serve_leads hnow (hnow.trans_le hlast) job.authHash job.request job.userRoute).run
    hready draws.choice fun y hy => ⟨hdel y hy, ?_⟩
  obtain ⟨n, hn⟩ := Prog.steps_choice _ _ _ y hy
  rw [hn]
  exact draws.timed n

theorem Kept.step {e : ListEvent} (h : Kept state u s) (hs : s.step services state u e = some s')
    (hdel : KeepsDeletions services state u (s, e)) : Kept state u s' := by
  cases Screen.step_cases hs with
  | request job draws hnow =>
      obtain ⟨hdated, hcached, hanswers⟩ := h.request hnow hdel
      refine ⟨hdated, hcached, ?_⟩
      cases hanswers with
      | refused hlist hshown =>
          simp only [hshown, hlist]
          exact swap_nil_sublist.subperm.trans h.rows
      | done hfollows => exact (swap_subperm h.rows).trans hfollows.perm.symm.subperm
      | unseen fragment hfollows hshown =>
          simp only [hshown]
          exact (swap_subperm h.rows).trans hfollows.swap_nil
  | refused route => exact ⟨h.dated, h.cached, swap_nil_sublist.subperm.trans h.rows⟩
  | elsewhere e c hnow he =>
      obtain ⟨hlisted, hredis⟩ := foreign_kept services s.world c he
      exact ⟨act_dated h.dated hnow e, h.cached.congr hredis hlisted, hlisted.symm ▸ h.rows⟩
  | dropped key => exact ⟨h.dated, h.cached.dropped key, h.rows⟩

theorem Kept.of_run {s₀ : Screen} {h : List (Screen × ListEvent)} (h₀ : Kept state u s₀)
    (run : Run (Screen.step services state u) s₀ h s)
    (hdel : ∀ x ∈ h, KeepsDeletions services state u x) : Kept state u s := by
  induction run with
  | nil => exact h₀
  | @snoc h s e s' _ hs ih =>
      have hkept := ih fun x hx => hdel x (List.mem_append_left _ hx)
      exact hkept.step hs (hdel (s, e) (by simp))

theorem Kept.once (h : Kept state u s) : (s.rows.map (·.id)).Nodup := by
  obtain ⟨own, hperm, hsub⟩ := h.rows
  exact (hperm.map _).nodup_iff.mp ((listed_once h.dated).sublist (hsub.map _))

/-- What succeeds does to the screen what it does to the table. -/
theorem Kept.step_complete {e : ListEvent} (h : Kept state u s)
    (hs : s.step services state u e = some s')
    (hdel : KeepsDeletions services state u (s, e)) (hok : Succeeds services state u (s, e)) :
    (s.rows.Perm (listed s.world.db u) → s'.rows.Perm (listed s'.world.db u)) ∧
      (toggles e = false → s.rows = listed s.world.db u → s'.rows = listed s'.world.db u) := by
  cases Screen.step_cases hs with
  | request job draws hnow =>
      obtain ⟨-, -, hanswers⟩ := h.request hnow hdel
      cases hanswers with
      | refused _ _ hfails | unseen _ _ _ hfails => exact absurd hok hfails
      | done hfollows =>
          refine ⟨fun hrows => (swap_perm hrows).trans hfollows.perm.symm, ?_⟩
          intro htoggle hrows
          dsimp only
          rw [hrows]
          exact (hfollows.ordered htoggle).symm
  | refused => exact hok.elim
  | elsewhere e c _ he =>
      obtain ⟨hlisted, -⟩ := foreign_kept services s.world c he
      simp only [hlisted]
      exact ⟨id, fun _ => id⟩
  | dropped => exact ⟨id, fun _ => id⟩

/-- A list that is loaded is that of the table. -/
theorem Kept.load (h : Kept state u s) {job : Requests.UserRequest} {draws : Draws}
    (hload : showsList job.request.route = true)
    (hs : s.step services state u (.request job draws) = some s')
    (hdel : KeepsDeletions services state u (s, .request job draws))
    (hok : Succeeds services state u (s, .request job draws)) :
    s'.rows = listed s'.world.db u := by
  cases Screen.step_cases hs with
  | request _ _ hnow =>
      obtain ⟨-, -, hanswers⟩ := h.request hnow hdel
      cases hanswers with
      | refused _ _ hfails | unseen _ _ _ hfails => exact absurd hok hfails
      | done hfollows =>
          have hswap (before : List Todo) (fragment : List Todo) :
              swap fragment before job.request.route = fragment ∧
                isToggle job.request.route = false := by
            cases hroute : job.request.route with
            | index | list => exact ⟨rfl, rfl⟩
            | create | toggle | delete | updateLocale | login | signup =>
                rw [hroute] at hload
                cases hload
          dsimp only
          rw [hfollows.ordered (hswap [] []).2, (hswap _ _).1, (hswap _ _).1]

/-- As long as all succeeds, the screen has all rows, and in the order of the table until
one is toggled. -/
theorem Kept.run_complete {s₁ : Screen} {h : List (Screen × ListEvent)}
    (h₁ : Kept state u s₁) (hrows : s₁.rows = listed s₁.world.db u)
    (run : Run (Screen.step services state u) s₁ h s)
    (hdel : ∀ x ∈ h, KeepsDeletions services state u x)
    (hok : ∀ x ∈ h, Succeeds services state u x) :
    s.rows.Perm (listed s.world.db u) ∧
      ((∀ x ∈ h, toggles x.2 = false) → s.rows = listed s.world.db u) := by
  induction run with
  | nil => exact ⟨List.Perm.of_eq hrows, fun _ => hrows⟩
  | @snoc h s e s' run hs ih =>
      have hdel' : ∀ x ∈ h, KeepsDeletions services state u x :=
        fun x hx => hdel x (List.mem_append_left _ hx)
      obtain ⟨hperm, heq⟩ := ih hdel' fun x hx => hok x (List.mem_append_left _ hx)
      obtain ⟨hperm', heq'⟩ := (h₁.of_run run hdel').step_complete hs (hdel (s, e) (by simp))
        (hok (s, e) (by simp))
      refine ⟨hperm' hperm, fun htoggles => ?_⟩
      have hbefore := heq fun x hx => htoggles x (List.mem_append_left _ hx)
      exact heq' (htoggles (s, e) (by simp)) hbefore

end Runs

/-- Whatever a client does and whatever fails, but for a lost deletion of its cached list,
its screen has no row that is not in the table as it is shown; and what it has loaded,
from the cache or not, stays the whole list while its requests succeed. -/
theorem screen_shows_table (services : Services) (state : AppState) {users : List UserRow}
    {start t₀ : OffsetDateTime} {w₀ : World}
    {h₀ : List ((Database × OffsetDateTime) × (Statement × OffsetDateTime))}
    (reached : Run (statementStep services.pg) (⟨users, []⟩, start) h₀ (w₀.db, t₀)) (u : UserId)
    (hcached : Cached state u w₀) {h : List (Screen × ListEvent)} {s : Screen}
    (run : Run (Screen.step services state u) ⟨w₀, t₀, []⟩ h s)
    (hdel : ∀ x ∈ h, KeepsDeletions services state u x) :
    (∀ t ∈ s.rows, t ∈ listed s.world.db u) ∧ (s.rows.map (·.id)).Nodup ∧
      ∀ job draws s₁ h' s', showsList job.request.route = true →
        s.step services state u (.request job draws) = some s₁ →
        Run (Screen.step services state u) s₁ h' s' →
        (∀ x ∈ (s, .request job draws) :: h', KeepsDeletions services state u x ∧
          Succeeds services state u x) →
        s'.rows.Perm (listed s'.world.db u) ∧
          ((∀ x ∈ h', toggles x.2 = false) → s'.rows = listed s'.world.db u) := by
  have h₀ : Kept state u ⟨w₀, t₀, []⟩ := ⟨.of_run reached, hcached, List.nil_subperm⟩
  have hkept : Kept state u s := h₀.of_run run hdel
  refine ⟨fun t ht => hkept.rows.subset ht, hkept.once, ?_⟩
  intro job draws s₁ h' s' hload hs run' hall
  obtain ⟨⟨hdel₁, hok₁⟩, hrest⟩ := List.forall_mem_cons.mp hall
  have hrows := hkept.load hload hs hdel₁ hok₁
  exact (hkept.step hs hdel₁).run_complete hrows run' (fun x hx => (hrest x hx).1)
    fun x hx => (hrest x hx).2

/-- A request of Ann's in which nothing fails. -/
def annAsks (route : Route) (userRoute : Requests.isUserRoute route = true)
    (now : OffsetDateTime) (uuid : Uuid) : ListEvent :=
  .request ⟨"correct horse", ⟨[], .plain, route⟩, userRoute⟩
    ⟨fun _ => .plain now uuid, now, now, fun _ => ⟨le_rfl, le_rfl⟩⟩

theorem annAsks_keepsDeletions {x : Screen × ListEvent}
    (hx : ∃ route userRoute now uuid, x.2 = annAsks route userRoute now uuid) :
    KeepsDeletions .plain .plain ⟨⟨1⟩⟩ x := by
  obtain ⟨s, e⟩ := x
  obtain ⟨route, userRoute, now, uuid, rfl⟩ := hx
  intro y hy key _
  obtain ⟨n, hn⟩ := Prog.steps_choice _ _ _ y hy
  rw [hn]
  rfl

/-- Ann sees her empty list, which is cached, and adds two todos; she loads the list again,
and completes the first todo. -/
theorem screen_shows_table_ann : ∃ h s s₁ h' s',
    Run (Screen.step .plain .plain ⟨⟨1⟩⟩) ⟨World.plain, 0, []⟩ h s ∧
    s.step .plain .plain ⟨⟨1⟩⟩ (annAsks .index rfl 30 ⟨0⟩) = some s₁ ∧
    Run (Screen.step .plain .plain ⟨⟨1⟩⟩) s₁ h' s' ∧ s'.rows.length = 2 ∧
    s'.rows.Perm (listed s'.world.db ⟨⟨1⟩⟩) := by
  obtain ⟨h, s, s₁, s', hrecord, hload, hloaded, htoggle, htoggled, hlength⟩ : ∃ h s s₁ s',
      Run.record (Screen.step .plain .plain ⟨⟨1⟩⟩) ⟨World.plain, 0, []⟩
        [annAsks .index rfl 5 ⟨0⟩, annAsks (.create ⟨"milk"⟩) rfl 10 ⟨1⟩,
          annAsks (.create ⟨"bread"⟩) rfl 20 ⟨2⟩] = some (h, s) ∧
      s.step .plain .plain ⟨⟨1⟩⟩ (annAsks .index rfl 30 ⟨0⟩) = some s₁ ∧
      Succeeds .plain .plain ⟨⟨1⟩⟩ (s, annAsks .index rfl 30 ⟨0⟩) ∧
      s₁.step .plain .plain ⟨⟨1⟩⟩ (annAsks (.toggle ⟨1⟩) rfl 40 ⟨0⟩) = some s' ∧
      Succeeds .plain .plain ⟨⟨1⟩⟩ (s₁, annAsks (.toggle ⟨1⟩) rfl 40 ⟨0⟩) ∧
      s'.rows.length = 2 :=
    ⟨_, _, _, _, rfl, rfl, ⟨_, rfl, by decide, by decide⟩, rfl, ⟨_, rfl, by decide, by decide⟩, rfl⟩
  have hcached : Cached .plain ⟨⟨1⟩⟩ World.plain := by
    intro _ entry todos hentry
    cases hentry
  have hasked := Run.forall_record
    (P := fun e => ∃ route userRoute now uuid, e = annAsks route userRoute now uuid) hrecord <| by
    intro e he
    simp only [List.mem_cons, List.not_mem_nil, or_false] at he
    rcases he with rfl | rfl | rfl
    · exact ⟨_, _, _, _, rfl⟩
    · exact ⟨_, _, _, _, rfl⟩
    · exact ⟨_, _, _, _, rfl⟩
  obtain ⟨-, -, hcomplete⟩ := screen_shows_table .plain .plain
    (@Run.nil _ _ (statementStep Services.plain.pg) (⟨[annRow], []⟩, 0)) ⟨⟨1⟩⟩ hcached
    (Run.of_record _ hrecord) fun x hx => annAsks_keepsDeletions (hasked x hx)
  have hrun : Run (Screen.step .plain .plain ⟨⟨1⟩⟩) s₁
      [(s₁, annAsks (.toggle ⟨1⟩) rfl 40 ⟨0⟩)] s' := Run.snoc .nil htoggle
  obtain ⟨hperm, -⟩ := hcomplete _ _ s₁ _ s' rfl hload hrun <| by
    intro x hx
    simp only [List.mem_cons, List.not_mem_nil, or_false] at hx
    rcases hx with rfl | rfl
    · exact ⟨annAsks_keepsDeletions ⟨_, _, _, _, rfl⟩, hloaded⟩
    · exact ⟨annAsks_keepsDeletions ⟨_, _, _, _, rfl⟩, htoggled⟩
  exact ⟨h, s, s₁, _, s', Run.of_record _ hrecord, hload, hrun, hlength, hperm⟩

end TodoRust.Todos
