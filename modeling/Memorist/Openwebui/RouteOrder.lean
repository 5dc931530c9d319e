import Memorist.Library.Checks
import Memorist.Text.Unicode

/-!
The order of the routes of the host application
(`open-webui-integration/memorist/backend/route_order.py`, `openwebui_entrypoint.py`).

* `ensureMemoristRoutesPrecedeSpa`: the routes of the integration go before the mount that serves
  everything else, unless the host is not as expected;
* `assertMemoristRouteOrder`, `createApp`: what a start of the application requires;
* `FirstServes`: a router by which a request gets to the first route that serves it;
* `ensure_isOk`, `ensure_spec`: when the repair goes through, and what it leaves;
* `ensure_dispatch`: no request is lost to the mount, and no other request is served differently;
* `createApp_fixed`: the application starts as it is once it has started.
-/

namespace Memorist.Routes

/-- A route of the host, as far as its order is decided: whether it is a `Mount`, its path and name,
and the paths of the router that a placeholder wraps, which a `Mount` is not. -/
structure Route where
  isMount : Bool := false
  path : Option Text := none
  name : Option Text := none
  originalRouter : Option (List (Option Text)) := none
  unwrapped : isMount = true → originalRouter = none := by simp
  deriving DecidableEq

/-- `MEMORIST_ROUTE_PREFIX`. -/
def memoristRoutePrefix : Text := "/api/v1/memorist".toList

/-- `SPA_MOUNT_NAME`. -/
def spaMountName : Text := "spa-static-files".toList

/-- `MemoristRouteOrderError`. -/
inductive RouteOrderError
  | multipleRootMounts (names : List (Option Text))
  | unknownRootMount (name : Option Text)
  | noMemoristRoutes
  | spaMountDisappeared
  | tooFewRoutes (expected found : ℕ)
  | afterSpa (lastIndex spaIndex : Option ℕ)
  deriving DecidableEq

/-- `RouteOrderReport`. -/
structure RouteOrderReport where
  spaMountIndex : Option ℕ
  memoristRouteCount : ℕ
  memoristFirstIndex : Option ℕ
  memoristLastIndex : Option ℕ
  deriving DecidableEq, Repr

/-- `RouteOrderReport.ordered_before_spa`. -/
def RouteOrderReport.orderedBeforeSpa (report : RouteOrderReport) : Bool :=
  match report.spaMountIndex, report.memoristLastIndex with
  | none, _ => true
  | some _, none => false
  | some spa, some last => last < spa

/-- `_route_paths`. -/
def routePaths (route : Route) : List Text :=
  match route.path with
  | some (c :: path) => [c :: path]
  | _ => (route.originalRouter.getD []).filterMap id

/-- `_memorist_path_count`. -/
def memoristPathCount (route : Route) : ℕ :=
  (routePaths route).countP fun path => memoristRoutePrefix.isPrefixOf path

/-- `_is_memorist_route`. -/
def isMemoristRoute (route : Route) : Bool := 0 < memoristPathCount route

/-- `_is_root_mount`. -/
def isRootMount (route : Route) : Bool :=
  route.isMount && (route.path = some [] || route.path = some ['/'])

/-- `find_spa_mount_index`: a root mount that is not the known one is refused. -/
def findSpaMountIndex (routes : List Route) : Except RouteOrderError (Option ℕ) :=
  match routes.filter isRootMount with
  | [] => .ok none
  | [route] =>
      if route.name = some spaMountName then .ok (routes.findIdx? isRootMount)
      else .error (.unknownRootMount route.name)
  | mounts => .error (.multipleRootMounts (mounts.map Route.name))

/-- The indexes of the routes of the integration. -/
def memoristIndexes (routes : List Route) : List ℕ :=
  (routes.zipIdx.filter fun p => isMemoristRoute p.1).map Prod.snd

/-- `describe_route_order`. -/
def describeRouteOrder (routes : List Route) : Except RouteOrderError RouteOrderReport := do
  let spaIndex ← findSpaMountIndex routes
  return {
    spaMountIndex := spaIndex
    memoristRouteCount := ((routes.filter isMemoristRoute).map memoristPathCount).sum
    memoristFirstIndex := (memoristIndexes routes).min?
    memoristLastIndex := (memoristIndexes routes).max? }

/-- The routes once those of the integration are put before the mount. -/
def reorder (routes : List Route) : Except RouteOrderError (List Route) := do
  let others := routes.filter fun route => !isMemoristRoute route
  match ← findSpaMountIndex others with
  | none => throw .spaMountDisappeared
  | some position =>
      return others.take position ++ (routes.filter isMemoristRoute ++ others.drop position)

/-- `ensure_memorist_routes_precede_spa`: the routes it leaves, with its report. -/
def ensureMemoristRoutesPrecedeSpa (routes : List Route) :
    Except RouteOrderError (List Route × RouteOrderReport) := do
  let spaIndex ← findSpaMountIndex routes
  if routes.all fun route => !isMemoristRoute route then throw .noMemoristRoutes
  let routes ←
    if (spaIndex.any fun spa => (memoristIndexes routes).any fun index => spa < index) then
      reorder routes
    else pure routes
  return (routes, ← describeRouteOrder routes)

/-- `assert_memorist_route_order`. -/
def assertMemoristRouteOrder (minimumRouteCount : ℕ) (routes : List Route) :
    Except RouteOrderError RouteOrderReport := do
  let report ← describeRouteOrder routes
  if report.memoristRouteCount < minimumRouteCount then
    throw (.tooFewRoutes minimumRouteCount report.memoristRouteCount)
  if !report.orderedBeforeSpa then
    throw (.afterSpa report.memoristLastIndex report.spaMountIndex)
  return report

/-! ### The start of the application -/

/-- `str(getattr(route, "path", ""))` begins so. -/
def pathStarts (beginning : String) (route : Route) : Bool :=
  beginning.toList.isPrefixOf (route.path.getD [])

/-- What `create_app` does to the routes of the host: the routers that it has not are included. -/
def includeRouters (router importRouter : List Route) (routes : List Route) : List Route :=
  let routes :=
    if routes.any fun route => pathStarts "/api/v1/memorist/" route &&
        !pathStarts "/api/v1/memorist/imports" route then routes
    else routes ++ router
  if routes.any (pathStarts "/api/v1/memorist/imports") then routes else routes ++ importRouter

/-- `create_app`, as far as the routes are concerned. -/
def createApp (router importRouter : List Route) (minimumRouteCount : ℕ) (routes : List Route) :
    Except RouteOrderError (List Route) := do
  let (routes, _) ← ensureMemoristRoutesPrecedeSpa (includeRouters router importRouter routes)
  let _ ← assertMemoristRouteOrder minimumRouteCount routes
  return routes

/-- A router tries the routes in their order: a request gets to the first one that serves it. -/
def FirstServes {ρ : Type} (serves : Route → ρ → Bool)
    (dispatch : List Route → ρ → Option Route) : Prop :=
  ∀ routes request route, dispatch routes request = some route ↔
    serves route request = true ∧ ∃ before after, routes = before ++ route :: after ∧
      ∀ other ∈ before, serves other request = false

/-! ### The mount -/

/-- The routes of a host that is as expected: at most one root mount, which is the known one. -/
inductive Expected : List Route → Prop
  | apiOnly {routes : List Route} (h : ∀ route ∈ routes, isRootMount route = false) :
      Expected routes
  | mounted {before after : List Route} {spa : Route} (hspa : isRootMount spa = true)
      (hname : spa.name = some spaMountName)
      (h : ∀ route ∈ before ++ after, isRootMount route = false) :
      Expected (before ++ spa :: after)

variable {routes before after : List Route} {route spa : Route}

/-- The mount is no route of the integration. -/
lemma not_isMemoristRoute_of_isRootMount (h : isRootMount route = true) :
    isMemoristRoute route = false := by
  rw [isRootMount, Bool.and_eq_true, Bool.or_eq_true, decide_eq_true_iff, decide_eq_true_iff] at h
  obtain ⟨hmount, hpath | hpath⟩ := h
  · rw [isMemoristRoute, memoristPathCount, routePaths, hpath, route.unwrapped hmount]
    rfl
  · rw [isMemoristRoute, memoristPathCount, routePaths, hpath]
    rfl

lemma filter_isRootMount_eq_nil (h : ∀ route ∈ routes, isRootMount route = false) :
    routes.filter isRootMount = [] :=
  List.filter_eq_nil_iff.mpr fun route hroute => by rw [h route hroute]; exact Bool.false_ne_true

lemma findSpaMountIndex_of_forall (h : ∀ route ∈ routes, isRootMount route = false) :
    findSpaMountIndex routes = .ok none := by
  rw [findSpaMountIndex, filter_isRootMount_eq_nil h]

lemma findSpaMountIndex_append (hspa : isRootMount spa = true)
    (hname : spa.name = some spaMountName)
    (h : ∀ route ∈ before ++ after, isRootMount route = false) :
    findSpaMountIndex (before ++ spa :: after) = .ok (some before.length) := by
  have hbefore : ∀ route ∈ before, isRootMount route = false := fun route hroute =>
    h route (List.mem_append_left _ hroute)
  have hafter : ∀ route ∈ after, isRootMount route = false := fun route hroute =>
    h route (List.mem_append_right _ hroute)
  have hfilter : (before ++ spa :: after).filter isRootMount = [spa] := by
    rw [List.filter_append, List.filter_cons_of_pos hspa, filter_isRootMount_eq_nil hbefore,
      filter_isRootMount_eq_nil hafter, List.nil_append]
  have hindex : (before ++ spa :: after).findIdx? isRootMount = some before.length := by
    rw [List.findIdx?_append, List.findIdx?_eq_none_iff.mpr hbefore, List.findIdx?_cons, hspa]
    simp
  rw [findSpaMountIndex, hfilter, hindex]
  exact if_pos hname

/-- The mount is found exactly in a host that is as expected. -/
lemma findSpaMountIndex_isOk :
    (∃ index, findSpaMountIndex routes = .ok index) ↔ Expected routes := by
  constructor
  · rintro ⟨index, h⟩
    rw [findSpaMountIndex] at h
    split at h
    · next hnil =>
        refine .apiOnly fun route hroute => ?_
        simpa using List.filter_eq_nil_iff.mp hnil route hroute
    · next spa hone =>
        split_ifs at h with hname
        obtain ⟨before, after, rfl, hbefore, hspa, hafter⟩ := List.filter_eq_cons_iff.mp hone
        refine .mounted hspa hname fun route hroute => ?_
        rcases List.mem_append.mp hroute with hroute | hroute
        · simpa using hbefore route hroute
        · simpa using List.filter_eq_nil_iff.mp hafter route hroute
    · cases h
  · rintro (h | ⟨hspa, hname, h⟩)
    · exact ⟨none, findSpaMountIndex_of_forall h⟩
    · exact ⟨_, findSpaMountIndex_append hspa hname h⟩

/-! ### The repair -/

/-- A route of the integration comes after the mount exactly if its index is larger. -/
lemma any_memoristIndexes_append (hspa : isMemoristRoute spa = false) :
    ((memoristIndexes (before ++ spa :: after)).any fun index => before.length < index) =
      after.any isMemoristRoute := by
  have hmember : ∀ p ∈ before.zipIdx, ¬before.length < p.2 := by
    rintro ⟨route, index⟩ hp
    have hlt := (List.mem_zipIdx hp).2.1
    omega
  rw [Bool.eq_iff_iff, List.any_eq_true, List.any_eq_true]
  simp only [memoristIndexes, List.mem_map, List.mem_filter, decide_eq_true_iff]
  constructor
  · rintro ⟨_, ⟨⟨route, index⟩, ⟨hp, hroute⟩, rfl⟩, hlt⟩
    rw [List.zipIdx_append, List.mem_append, List.zipIdx_cons, List.mem_cons] at hp
    rcases hp with hp | hp | hp
    · exact absurd hlt (hmember _ hp)
    · obtain ⟨rfl, rfl⟩ := Prod.mk.inj hp
      rw [hspa] at hroute
      cases hroute
    · exact ⟨route, List.fst_mem_of_mem_zipIdx hp, hroute⟩
  · rintro ⟨route, hroute, hmemorist⟩
    obtain ⟨k, hk⟩ := List.getElem?_of_mem hroute
    refine ⟨before.length + 1 + k, ⟨(route, before.length + 1 + k), ⟨?_, hmemorist⟩, rfl⟩,
      by omega⟩
    rw [List.mk_mem_zipIdx_iff_getElem?, List.getElem?_append_right (by omega)]
    have hindex : before.length + 1 + k - before.length = k + 1 := by omega
    rw [hindex, List.getElem?_cons_succ, hk]

/-- What the reordering leaves. -/
lemma reorder_append (hspa : isRootMount spa = true) (hname : spa.name = some spaMountName)
    (h : ∀ route ∈ before ++ after, isRootMount route = false) :
    reorder (before ++ spa :: after) =
      .ok ((before.filter fun route => !isMemoristRoute route) ++
        ((before ++ after).filter isMemoristRoute ++
          spa :: after.filter fun route => !isMemoristRoute route)) := by
  have hother := not_isMemoristRoute_of_isRootMount hspa
  have hothers : (before ++ spa :: after).filter (fun route => !isMemoristRoute route) =
      before.filter (fun route => !isMemoristRoute route) ++
        spa :: after.filter fun route => !isMemoristRoute route := by
    rw [List.filter_append, List.filter_cons_of_pos (by rw [hother]; rfl)]
  have hrest : ∀ route ∈ before.filter (fun route => !isMemoristRoute route) ++
      after.filter (fun route => !isMemoristRoute route), isRootMount route = false := by
    intro route hroute
    rcases List.mem_append.mp hroute with hroute | hroute
    · exact h route (List.mem_append_left _ (List.mem_filter.mp hroute).1)
    · exact h route (List.mem_append_right _ (List.mem_filter.mp hroute).1)
  have hmemorist : (before ++ spa :: after).filter isMemoristRoute =
      (before ++ after).filter isMemoristRoute := by
    rw [List.filter_append, List.filter_cons_of_neg (by rw [hother]; exact Bool.false_ne_true),
      List.filter_append]
  rw [reorder, hothers, findSpaMountIndex_append hspa hname hrest]
  show Except.ok _ = _
  rw [List.take_left, List.drop_left, hmemorist]

/-- What the repair leaves of routes with the mount between them. -/
def repaired (before after : List Route) (spa : Route) : List Route :=
  if after.any isMemoristRoute then
    (before.filter fun route => !isMemoristRoute route) ++
      ((before ++ after).filter isMemoristRoute ++
        spa :: after.filter fun route => !isMemoristRoute route)
  else before ++ spa :: after

lemma perm_filter_append (xs : List Route) :
    (xs.filter (fun route => !isMemoristRoute route) ++ xs.filter isMemoristRoute).Perm xs :=
  List.perm_append_comm.trans (List.filter_append_perm isMemoristRoute xs)

lemma repaired_perm : (repaired before after spa).Perm (before ++ spa :: after) := by
  rw [repaired]
  split_ifs
  · rw [List.filter_append, List.append_assoc]
    calc before.filter (fun route => !isMemoristRoute route) ++
          (before.filter isMemoristRoute ++ (after.filter isMemoristRoute ++
            spa :: after.filter fun route => !isMemoristRoute route))
        = (before.filter (fun route => !isMemoristRoute route) ++
            before.filter isMemoristRoute) ++ (after.filter isMemoristRoute ++
            spa :: after.filter fun route => !isMemoristRoute route) := by
          rw [List.append_assoc]
      _ |>.Perm (before ++ (spa :: (after.filter isMemoristRoute ++
            after.filter fun route => !isMemoristRoute route))) :=
          (perm_filter_append before).append List.perm_middle
      _ |>.Perm (before ++ spa :: after) :=
          ((List.filter_append_perm isMemoristRoute after).cons spa).append_left before
  · rfl

/-- The routes of either kind stay in their order. -/
lemma filter_repaired (hspa : isMemoristRoute spa = false) :
    (repaired before after spa).filter isMemoristRoute =
        (before ++ spa :: after).filter isMemoristRoute ∧
      (repaired before after spa).filter (fun route => !isMemoristRoute route) =
        (before ++ spa :: after).filter fun route => !isMemoristRoute route := by
  rw [repaired]
  split_ifs
  · constructor <;> simp [List.filter_append, hspa]
  · exact ⟨rfl, rfl⟩

/-- After the repair no route of the integration comes after the mount. -/
lemma exists_repaired (h : ∀ route ∈ before ++ after, isRootMount route = false) :
    ∃ before' after', repaired before after spa = before' ++ spa :: after' ∧
      (∀ route ∈ before' ++ after', isRootMount route = false) ∧
      after'.any isMemoristRoute = false := by
  rw [repaired]
  split_ifs with hany
  · refine ⟨before.filter (fun route => !isMemoristRoute route) ++
      (before ++ after).filter isMemoristRoute, after.filter fun route => !isMemoristRoute route,
      by rw [List.append_assoc], fun route hroute => ?_, ?_⟩
    · refine h route ?_
      simp only [List.mem_append, List.mem_filter] at hroute ⊢
      tauto
    · rw [List.any_eq_false]
      intro route hroute
      simpa using (List.mem_filter.mp hroute).2
  · exact ⟨before, after, rfl, h, by simpa using hany⟩

/-- The report of routes. -/
def reportOf (spaIndex : Option ℕ) (routes : List Route) : RouteOrderReport where
  spaMountIndex := spaIndex
  memoristRouteCount := ((routes.filter isMemoristRoute).map memoristPathCount).sum
  memoristFirstIndex := (memoristIndexes routes).min?
  memoristLastIndex := (memoristIndexes routes).max?

lemma describeRouteOrder_of_find {index : Option ℕ} (h : findSpaMountIndex routes = .ok index) :
    describeRouteOrder routes = .ok (reportOf index routes) := by
  rw [describeRouteOrder, h]
  rfl

lemma all_not_memorist (h : ∃ route ∈ routes, isMemoristRoute route = true) :
    (routes.all fun route => !isMemoristRoute route) = false := by
  obtain ⟨route, hroute, hmemorist⟩ := h
  rw [List.all_eq_false]
  exact ⟨route, hroute, by rw [hmemorist]; exact Bool.false_ne_true⟩

lemma ensure_of_forall (h : ∀ route ∈ routes, isRootMount route = false)
    (hsome : ∃ route ∈ routes, isMemoristRoute route = true) :
    ensureMemoristRoutesPrecedeSpa routes = .ok (routes, reportOf none routes) := by
  rw [ensureMemoristRoutesPrecedeSpa, findSpaMountIndex_of_forall h]
  simp [bind, Except.bind, all_not_memorist hsome,
    describeRouteOrder_of_find (findSpaMountIndex_of_forall h), pure, Except.pure]

lemma ensure_append (hspa : isRootMount spa = true) (hname : spa.name = some spaMountName)
    (h : ∀ route ∈ before ++ after, isRootMount route = false)
    (hsome : ∃ route ∈ before ++ spa :: after, isMemoristRoute route = true) :
    ∃ before' after', repaired before after spa = before' ++ spa :: after' ∧
      (∀ route ∈ before' ++ after', isRootMount route = false) ∧
      after'.any isMemoristRoute = false ∧
      ensureMemoristRoutesPrecedeSpa (before ++ spa :: after) =
        .ok (before' ++ spa :: after',
          reportOf (some before'.length) (before' ++ spa :: after')) := by
  obtain ⟨before', after', heq, hroots, hafter⟩ := @exists_repaired before after spa h
  refine ⟨before', after', heq, hroots, hafter, ?_⟩
  have hindexes := @any_memoristIndexes_append before after spa
    (not_isMemoristRoute_of_isRootMount hspa)
  have hdescribe : describeRouteOrder (repaired before after spa) =
      .ok (reportOf (some before'.length) (before' ++ spa :: after')) := by
    rw [heq]
    exact describeRouteOrder_of_find (findSpaMountIndex_append hspa hname hroots)
  rw [ensureMemoristRoutesPrecedeSpa, findSpaMountIndex_append hspa hname h, Checks.ok_bind,
    all_not_memorist hsome, if_neg Bool.false_ne_true]
  simp only [Option.any_some, hindexes]
  rw [repaired] at heq hdescribe
  split_ifs at heq hdescribe ⊢
  · rw [reorder_append hspa hname h, Checks.ok_bind, hdescribe, Checks.ok_bind, heq]
    rfl
  · show (do return (before ++ spa :: after, ← describeRouteOrder (before ++ spa :: after))) = _
    rw [hdescribe, Checks.ok_bind, heq]
    rfl

/-- The repair goes through exactly if the host is as expected and has a route of the
integration. -/
lemma ensure_isOk : (∃ result, ensureMemoristRoutesPrecedeSpa routes = .ok result) ↔
    Expected routes ∧ ∃ route ∈ routes, isMemoristRoute route = true := by
  constructor
  · rintro ⟨result, h⟩
    rw [ensureMemoristRoutesPrecedeSpa] at h
    obtain ⟨index, hindex, h⟩ := Checks.bind_eq_ok.mp h
    refine ⟨findSpaMountIndex_isOk.mp ⟨index, hindex⟩, ?_⟩
    by_contra hnone
    have hall : (routes.all fun route => !isMemoristRoute route) = true := by
      rw [List.all_eq_true]
      intro route hroute
      have hfalse : isMemoristRoute route = false := by
        rw [← Bool.not_eq_true]
        exact fun hmemorist => hnone ⟨route, hroute, hmemorist⟩
      rw [hfalse]
      rfl
    rw [hall, if_pos rfl] at h
    cases h
  · rintro ⟨h | ⟨hspa, hname, h⟩, hsome⟩
    · exact ⟨_, ensure_of_forall h hsome⟩
    · obtain ⟨before', after', -, -, -, hensure⟩ := ensure_append hspa hname h hsome
      exact ⟨_, hensure⟩

/-- What a repair that goes through leaves: routes without a mount, or with those of the integration
before it. -/
lemma ensure_eq_ok {routes' : List Route} {report : RouteOrderReport}
    (h : ensureMemoristRoutesPrecedeSpa routes = .ok (routes', report)) :
    (routes' = routes ∧ (∀ route ∈ routes, isRootMount route = false) ∧
        report = reportOf none routes) ∨
      ∃ before after before' after' spa, routes = before ++ spa :: after ∧
        routes' = before' ++ spa :: after' ∧ repaired before after spa = routes' ∧
        isRootMount spa = true ∧ spa.name = some spaMountName ∧
        (∀ route ∈ before' ++ after', isRootMount route = false) ∧
        after'.any isMemoristRoute = false ∧ report = reportOf (some before'.length) routes' := by
  obtain ⟨hexpected, hsome⟩ := ensure_isOk.mp ⟨_, h⟩
  cases hexpected with
  | apiOnly hroots =>
      rw [ensure_of_forall hroots hsome] at h
      obtain ⟨rfl, rfl⟩ := Prod.mk.inj (Except.ok.inj h)
      exact .inl ⟨rfl, hroots, rfl⟩
  | mounted hspa hname hroots =>
      obtain ⟨before', after', heq, hroots', hafter, hensure⟩ :=
        ensure_append hspa hname hroots hsome
      rw [hensure] at h
      obtain ⟨rfl, rfl⟩ := Prod.mk.inj (Except.ok.inj h)
      exact .inr ⟨_, _, before', after', _, rfl, rfl, heq, hspa, hname, hroots', hafter, rfl⟩

/-- The routes of either kind are those that there were, in the order that they had. -/
lemma filter_of_ensure {routes' : List Route} {report : RouteOrderReport}
    (h : ensureMemoristRoutesPrecedeSpa routes = .ok (routes', report)) :
    routes'.Perm routes ∧ routes'.filter isMemoristRoute = routes.filter isMemoristRoute ∧
      routes'.filter (fun route => !isMemoristRoute route) =
        routes.filter fun route => !isMemoristRoute route := by
  obtain ⟨rfl, -⟩ | ⟨before, after, _, _, spa, rfl, -, rfl, hspa, -⟩ := ensure_eq_ok h
  · exact ⟨.refl _, rfl, rfl⟩
  · exact ⟨repaired_perm, filter_repaired (not_isMemoristRoute_of_isRootMount hspa)⟩

lemma lt_of_mem_memoristIndexes {index : ℕ} (hspa : isMemoristRoute spa = false)
    (hafter : after.any isMemoristRoute = false)
    (h : index ∈ memoristIndexes (before ++ spa :: after)) : index < before.length := by
  have hle : ¬before.length < index := by
    rw [← any_memoristIndexes_append hspa] at hafter
    have hnot := List.any_eq_false.mp hafter index h
    simpa using hnot
  have hne : index ≠ before.length := by
    rintro rfl
    obtain ⟨⟨route, k⟩, hmem, rfl⟩ := List.mem_map.mp h
    obtain ⟨hmem, hmemorist⟩ := List.mem_filter.mp hmem
    rw [List.mk_mem_zipIdx_iff_getElem?, List.getElem?_append_right (le_refl _), Nat.sub_self,
      List.getElem?_cons_zero] at hmem
    obtain rfl := Option.some.inj hmem
    rw [hspa] at hmemorist
    cases hmemorist
  omega

lemma orderedBeforeSpa_reportOf (hspa : isMemoristRoute spa = false)
    (hafter : after.any isMemoristRoute = false)
    (hsome : ∃ route ∈ before ++ spa :: after, isMemoristRoute route = true) :
    (reportOf (some before.length) (before ++ spa :: after)).orderedBeforeSpa = true := by
  cases hmax : (memoristIndexes (before ++ spa :: after)).max? with
  | none =>
      obtain ⟨route, hroute, hmemorist⟩ := hsome
      obtain ⟨k, hk⟩ := List.getElem?_of_mem hroute
      have hmem : k ∈ memoristIndexes (before ++ spa :: after) :=
        List.mem_map.mpr ⟨(route, k), List.mem_filter.mpr
          ⟨List.mk_mem_zipIdx_iff_getElem?.mpr hk, hmemorist⟩, rfl⟩
      rw [List.max?_eq_none_iff.mp hmax] at hmem
      exact absurd hmem List.not_mem_nil
  | some last =>
      have hlt := lt_of_mem_memoristIndexes hspa hafter (List.max?_mem hmax)
      simpa [RouteOrderReport.orderedBeforeSpa, reportOf, hmax] using hlt

lemma exists_memorist_of_ensure {routes' : List Route} {report : RouteOrderReport}
    (h : ensureMemoristRoutesPrecedeSpa routes = .ok (routes', report)) :
    ∃ route ∈ routes', isMemoristRoute route = true := by
  obtain ⟨route, hroute, hm⟩ := (ensure_isOk.mp ⟨_, h⟩).2
  exact ⟨route, (filter_of_ensure h).1.mem_iff.mpr hroute, hm⟩

/-- No two root mounts: the parts before and after the mount are determined. -/
lemma after_eq_of_append_eq {before' after' : List Route} {spa' : Route}
    (h : ∀ route ∈ before ++ after, isRootMount route = false) (hspa' : isRootMount spa' = true)
    (heq : before ++ spa :: after = before' ++ spa' :: after') : after' = after := by
  have hother : ∀ {xs : List Route}, (∀ route ∈ xs, route ∈ before ++ after) → spa' ∉ xs := by
    intro xs hxs hmem
    have hfalse := h spa' (hxs spa' hmem)
    rw [hspa'] at hfalse
    cases hfalse
  rcases List.append_eq_append_iff.mp heq with ⟨cs, rfl, hcs⟩ | ⟨cs, rfl, hcs⟩
  · cases cs with
    | nil => exact (List.cons.inj hcs).2.symm
    | cons c cs =>
        obtain ⟨rfl, rfl⟩ := List.cons.inj hcs
        exact absurd (List.mem_append_right cs List.mem_cons_self)
          (hother fun route hroute => List.mem_append_right _ hroute)
  · cases cs with
    | nil => exact (List.cons.inj hcs).2
    | cons c cs =>
        obtain ⟨rfl, -⟩ := List.cons.inj hcs
        exact absurd (List.mem_append_right before' List.mem_cons_self)
          (hother fun route hroute => List.mem_append_left _ hroute)

/-- A second repair changes nothing. -/
lemma ensure_again {routes' : List Route} {report : RouteOrderReport}
    (h : ensureMemoristRoutesPrecedeSpa routes = .ok (routes', report)) :
    ensureMemoristRoutesPrecedeSpa routes' = .ok (routes', report) := by
  have hsome := exists_memorist_of_ensure h
  obtain ⟨rfl, -⟩ | ⟨_, _, before', after', spa, -, rfl, -, hspa, hname, hroots, hafter, rfl⟩ :=
    ensure_eq_ok h
  · exact h
  · obtain ⟨before'', after'', heq, hroots'', -, hensure⟩ := ensure_append hspa hname hroots hsome
    rw [repaired, hafter, if_neg Bool.false_ne_true] at heq
    have hfind := findSpaMountIndex_append hspa hname hroots''
    rw [← heq, findSpaMountIndex_append hspa hname hroots] at hfind
    rw [hensure, ← heq, ← Option.some.inj (Except.ok.inj hfind)]

/-- **A repair that goes through leaves the routes that there were, those of either kind in their
order and none of the integration after the mount; a second one changes nothing.** -/
theorem ensure_spec {routes' : List Route} {report : RouteOrderReport}
    (h : ensureMemoristRoutesPrecedeSpa routes = .ok (routes', report)) :
    routes'.Perm routes ∧ routes'.filter isMemoristRoute = routes.filter isMemoristRoute ∧
      (routes'.filter fun route => !isMemoristRoute route) =
        (routes.filter fun route => !isMemoristRoute route) ∧
      (∀ before after spa, routes' = before ++ spa :: after → isRootMount spa = true →
        ∀ route ∈ after, isMemoristRoute route = false) ∧
      report.orderedBeforeSpa = true ∧
      ensureMemoristRoutesPrecedeSpa routes' = .ok (routes', report) := by
  obtain ⟨hperm, hmemorist, hother⟩ := filter_of_ensure h
  refine ⟨hperm, hmemorist, hother, ?_, ?_, ensure_again h⟩
  · intro before after spa heq hspa route hroute
    obtain ⟨rfl, hroots, -⟩ | ⟨_, _, before', after', _, -, rfl, -, -, -, hroots, hafter, -⟩ :=
      ensure_eq_ok h
    · have hfalse := hroots spa (heq ▸ List.mem_append_right _ List.mem_cons_self)
      rw [hspa] at hfalse
      cases hfalse
    · rw [after_eq_of_append_eq hroots hspa heq] at hroute
      simpa using List.any_eq_false.mp hafter route hroute
  · have hsome := exists_memorist_of_ensure h
    obtain ⟨-, -, rfl⟩ | ⟨_, _, before', after', spa, -, rfl, -, hspa, -, -, hafter, rfl⟩ :=
      ensure_eq_ok h
    · rfl
    · exact orderedBeforeSpa_reportOf (not_isMemoristRoute_of_isRootMount hspa) hafter hsome

/-- The mount of the host. -/
def spaMount : Route where
  isMount := true
  path := some []
  name := some spaMountName

/-- A route of a path. -/
def apiRoute (path : String) : Route where
  path := some path.toList

/-- A host to which the integration was added after its mount. -/
def hostRoutes : List Route :=
  [apiRoute "/api/models", spaMount, apiRoute "/api/v1/memorist/status",
    apiRoute "/api/v1/memorist/imports"]

/-- The routes of the host once they are repaired. -/
def repairedRoutes : List Route :=
  [apiRoute "/api/models", apiRoute "/api/v1/memorist/status", apiRoute "/api/v1/memorist/imports",
    spaMount]

lemma ensure_hostRoutes :
    ensureMemoristRoutesPrecedeSpa hostRoutes = .ok (repairedRoutes, ⟨some 3, 2, some 1, some 2⟩) :=
  rfl

theorem ensure_spec_host : repairedRoutes.Perm hostRoutes :=
  (ensure_spec ensure_hostRoutes).1

/-! ### Requests -/

section

variable {ρ : Type} {serves : Route → ρ → Bool} {dispatch : List Route → ρ → Option Route}

lemma FirstServes.eq_find? (h : FirstServes serves dispatch) (routes : List Route) (request : ρ) :
    dispatch routes request = routes.find? fun route => serves route request :=
  Option.ext fun route => (h routes request route).trans
    (by simp only [List.find?_eq_some_iff_append, Bool.not_eq_true'])

/-- The routes of one kind decide where the others serve nothing. -/
lemma dispatch_filter (hfirst : FirstServes serves dispatch) {request : ρ} {p : Route → Bool}
    (h : ∀ route ∈ routes, serves route request = true → p route = true) :
    dispatch (routes.filter p) request = dispatch routes request := by
  rw [hfirst.eq_find?, hfirst.eq_find?, List.find?_filter]
  refine List.find?_congr fun route hroute => ?_
  cases hserves : serves route request with
  | false => simp
  | true => simp [h route hroute hserves]

/-- A repair that goes through leaves the routes of the integration in a front part without the
mount. -/
lemma exists_front {routes' : List Route} {report : RouteOrderReport}
    (h : ensureMemoristRoutesPrecedeSpa routes = .ok (routes', report)) :
    ∃ front back, routes' = front ++ back ∧ (∀ route ∈ front, isRootMount route = false) ∧
      ∀ route ∈ back, isMemoristRoute route = false := by
  obtain ⟨rfl, hroots, -⟩ | ⟨_, _, before', after', spa, -, rfl, -, hspa, -, hroots, hafter, -⟩ :=
    ensure_eq_ok h
  · exact ⟨routes', [], by rw [List.append_nil], hroots, by simp⟩
  · refine ⟨before', spa :: after', rfl, fun route hroute =>
      hroots route (List.mem_append_left _ hroute), fun route hroute => ?_⟩
    rcases List.mem_cons.mp hroute with rfl | hroute
    · exact not_isMemoristRoute_of_isRootMount hspa
    · simpa using List.any_eq_false.mp hafter route hroute

/-- **After the repair a request that a route of the integration serves does not get to the mount,
one that no other route serves gets to the route of the integration that was registered first for
it, and one that no route of the integration serves gets to where it got before.** -/
theorem ensure_dispatch {routes' : List Route} {report : RouteOrderReport}
    (h : ensureMemoristRoutesPrecedeSpa routes = .ok (routes', report))
    (hfirst : FirstServes serves dispatch) (request : ρ) :
    ((∃ route ∈ routes, isMemoristRoute route = true ∧ serves route request = true) →
      ∃ route, dispatch routes' request = some route ∧ isRootMount route = false) ∧
    ((∀ route ∈ routes, serves route request = true →
        isMemoristRoute route = true ∨ isRootMount route = true) →
      (∃ route ∈ routes, isMemoristRoute route = true ∧ serves route request = true) →
      dispatch routes' request =
        dispatch (routes.filter isMemoristRoute) request) ∧
    ((∀ route ∈ routes, isMemoristRoute route = true → serves route request = false) →
      dispatch routes' request = dispatch routes request) := by
  obtain ⟨hperm, hmemorist, hother⟩ := filter_of_ensure h
  obtain ⟨front, back, rfl, hfront, hback⟩ := exists_front h
  have hserved : (∃ route ∈ routes, isMemoristRoute route = true ∧ serves route request = true) →
      ∃ route ∈ front, dispatch (front ++ back) request = some route ∧
        dispatch front request = some route := by
    rintro ⟨route, hroute, hm, hserves⟩
    have hmem : route ∈ front := by
      rcases List.mem_append.mp (hperm.mem_iff.mpr hroute) with hmem | hmem
      · exact hmem
      · rw [hback route hmem] at hm
        cases hm
    have hfound : (front.find? fun route => serves route request).isSome = true :=
      List.find?_isSome.mpr ⟨route, hmem, hserves⟩
    obtain ⟨first, hfind⟩ := Option.isSome_iff_exists.mp hfound
    refine ⟨first, List.mem_of_find?_eq_some hfind, ?_, (hfirst.eq_find? _ _).trans hfind⟩
    rw [hfirst.eq_find?, List.find?_append, hfind]
    rfl
  refine ⟨fun hsome => ?_, fun honly hsome => ?_, fun hnone => ?_⟩
  · obtain ⟨route, hroute, hdispatch, -⟩ := hserved hsome
    exact ⟨route, hdispatch, hfront route hroute⟩
  · obtain ⟨route, hroute, hdispatch, hfront'⟩ := hserved hsome
    have hnil : back.filter isMemoristRoute = [] :=
      List.filter_eq_nil_iff.mpr fun route hroute => by
        rw [hback route hroute]
        exact Bool.false_ne_true
    rw [← hmemorist, List.filter_append, hnil, List.append_nil, hdispatch, ← hfront']
    refine (dispatch_filter hfirst fun route hroute hserves => ?_).symm
    rcases honly route (hperm.mem_iff.mp (List.mem_append_left _ hroute)) hserves with hm | hroot
    · exact hm
    · rw [hfront route hroute] at hroot
      cases hroot
  · have hothers : ∀ route ∈ routes, serves route request = true →
        (!isMemoristRoute route) = true := by
      intro route hroute hserves
      cases hm : isMemoristRoute route with
      | false => rfl
      | true => rw [hnone route hroute hm] at hserves; cases hserves
    calc dispatch (front ++ back) request
        = dispatch ((front ++ back).filter fun route => !isMemoristRoute route) request :=
          (dispatch_filter hfirst fun route hroute =>
            hothers route (hperm.mem_iff.mp hroute)).symm
      _ = dispatch (routes.filter fun route => !isMemoristRoute route) request := by
          rw [hother]
      _ = dispatch routes request := dispatch_filter hfirst hothers

end

/-- Whether a route serves a path; a mount at the root serves each. -/
def servesPath (route : Route) (path : Text) : Bool :=
  isRootMount route || route.path = some path

theorem ensure_dispatch_host :
    ∃ route, (repairedRoutes.find? fun route =>
      servesPath route "/api/v1/memorist/status".toList) = some route ∧ isRootMount route = false :=
  (@ensure_dispatch hostRoutes _ servesPath (fun routes request =>
    routes.find? fun route => servesPath route request) _ _ ensure_hostRoutes
      (fun routes request route => by simp only [List.find?_eq_some_iff_append, Bool.not_eq_true'])
        "/api/v1/memorist/status".toList).1 ⟨apiRoute "/api/v1/memorist/status", by decide, rfl, rfl⟩

/-! ### The start of the application -/

lemma includeRouters_of_any {router importRouter : List Route}
    (hrouter : (routes.any fun route => pathStarts "/api/v1/memorist/" route &&
      !pathStarts "/api/v1/memorist/imports" route) = true)
    (himport : routes.any (pathStarts "/api/v1/memorist/imports") = true) :
    includeRouters router importRouter routes = routes := by
  rw [includeRouters, if_pos hrouter, if_pos himport]

/-- The application has routes of both routers once they are included. -/
lemma any_includeRouters {router importRouter : List Route}
    (hrouter : (router.any fun route => pathStarts "/api/v1/memorist/" route &&
      !pathStarts "/api/v1/memorist/imports" route) = true)
    (himport : importRouter.any (pathStarts "/api/v1/memorist/imports") = true) :
    ((includeRouters router importRouter routes).any fun route =>
        pathStarts "/api/v1/memorist/" route &&
          !pathStarts "/api/v1/memorist/imports" route) = true ∧
      (includeRouters router importRouter routes).any
        (pathStarts "/api/v1/memorist/imports") = true := by
  rw [includeRouters]
  split_ifs with h₁ h₂ h₂
  · exact ⟨h₁, h₂⟩
  · rw [List.any_append, List.any_append, h₁, himport, Bool.true_or, Bool.or_true]
    exact ⟨rfl, rfl⟩
  · rw [List.any_append, hrouter, Bool.or_true]
    exact ⟨rfl, h₂⟩
  · rw [List.any_append, List.any_append, List.any_append, hrouter, himport, Bool.or_true,
      Bool.true_or, Bool.or_true]
    exact ⟨rfl, rfl⟩

/-- **An application that has started starts again as it is: where the routers have routes with
their paths, a second start neither includes nor moves a route.** -/
theorem createApp_fixed {router importRouter routes' : List Route} {minimumRouteCount : ℕ}
    (hrouter : (router.any fun route => pathStarts "/api/v1/memorist/" route &&
      !pathStarts "/api/v1/memorist/imports" route) = true)
    (himport : importRouter.any (pathStarts "/api/v1/memorist/imports") = true)
    (h : createApp router importRouter minimumRouteCount routes = .ok routes') :
    createApp router importRouter minimumRouteCount routes' = .ok routes' := by
  rw [createApp] at h
  obtain ⟨⟨routes₁, report⟩, hensure, h⟩ := Checks.bind_eq_ok.mp h
  obtain ⟨checked, hassert, h⟩ := Checks.bind_eq_ok.mp h
  obtain rfl := Except.ok.inj h
  have hperm := (filter_of_ensure hensure).1
  have hany := @any_includeRouters routes _ _ hrouter himport
  have hincluded : includeRouters router importRouter routes₁ = routes₁ :=
    includeRouters_of_any (by rw [hperm.any_eq]; exact hany.1) (by rw [hperm.any_eq]; exact hany.2)
  rw [createApp, hincluded, ensure_again hensure, Checks.ok_bind]
  dsimp only
  rw [hassert]
  rfl

theorem createApp_fixed_host :
    createApp [apiRoute "/api/v1/memorist/status"] [apiRoute "/api/v1/memorist/imports"] 2
      repairedRoutes = .ok repairedRoutes :=
  @createApp_fixed [apiRoute "/api/models", spaMount] _ _ _ _ rfl rfl rfl

end Memorist.Routes
