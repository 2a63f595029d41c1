import BirthHub.Billing.Snapshot

/-!
# The cache and the arguments of a call

`getBillingSnapshot` caches a snapshot under the ids of the organization, and not under the
number of days for which it was computed, and it looks a reference up without its case and the
blanks around it. So a call that finds an entry answers what the call that filled it computed.
That is what it would compute itself just when both are for one organization and, where no
deadline is stored, for as many days.
-/

namespace Billing

open Data Effect

/-- The operations that compute a snapshot; they do not look into the cache. -/
def BillingOp.computes : BillingOp → Prop
  | .now | .writeCache .. | .findOrganization _ | .creditBalance _ | .findPlan _
  | .createPlan _ => True
  | _ => False

theorem planOfRecord_within {found : OrganizationRecord} :
    (planOfRecord found).Within BillingOp.computes := by
  unfold planOfRecord
  cases found.subscriptionPlan <|> found.plan with
  | some plan => trivial
  | none =>
      refine .bind (.perform trivial) fun plan => ?_
      cases plan with
      | some plan => trivial
      | none => exact .perform trivial

theorem computeBillingSnapshot_within {reference : String} {days : Int} :
    (computeBillingSnapshot reference days).Within BillingOp.computes := by
  refine .bind (.perform trivial) fun found => ?_
  cases found with
  | none => trivial
  | some found =>
      refine .bind planOfRecord_within fun plan => .bind (.perform trivial) fun credit =>
        .bind (.perform trivial) fun now => .bind ?_ fun _ => trivial
      unfold cacheBillingSnapshot
      split
      · trivial
      · refine awaitAll_within fun p there => ?_
        obtain ⟨reference, _, rfl⟩ := List.mem_map.mp there
        exact .perform trivial

/-! ## One call -/

section

variable {now : Int} {s s' t : BillingStore} {request : String × Int}
  {x : Except Thrown (BillingSnapshot Value)}

theorem Database.exists_freshPlanId (db : Database) : ∃ id, db.isFreshPlanId id = true := by
  obtain ⟨id, apart⟩ := Infinite.exists_notMem_finset
    (db.plans.rows.map (·.id) ++ db.organizations.rows.filterMap (·.planId) ++
      db.subscriptions.rows.map (·.planId)).toFinset
  simp only [List.mem_toFinset, List.mem_append, not_or] at apart
  obtain ⟨⟨plans, organizations⟩, subscriptions⟩ := apart
  refine ⟨id, ?_⟩
  simp only [Database.isFreshPlanId, Bool.and_eq_true, List.all_eq_true, decide_eq_true_eq,
    Option.isNone_iff_eq_none]
  refine ⟨⟨Table.get_eq_none.mpr fun plan there key => ?_, fun organization there same => ?_⟩,
    fun row there same => ?_⟩
  · rcases mem_keys_plan.mp key with same | same | ⟨_, _, same⟩ | ⟨_, _, same⟩
    · exact plans (List.mem_map.mpr ⟨plan, there, (Column.id.inj same).symm⟩)
    all_goals cases same
  · exact organizations (List.mem_filterMap.mpr ⟨organization, there, same⟩)
  · exact subscriptions (List.mem_map.mpr ⟨row, there, same⟩)

theorem at_computes {o : BillingOp} (computes : o.computes) (s : BillingStore) :
    ∃ planId answer s', (atInstant now).handle o planId s = some (answer, s') := by
  cases o with
  | createPlan code =>
      obtain ⟨id, fresh⟩ := s.db.exists_freshPlanId
      exact ⟨id, _, _, if_pos fresh⟩
  | now | writeCache | findOrganization | creditBalance | findPlan => exact ⟨"", _, _, rfl⟩
  | _ => exact computes.elim

theorem exists_exec_compute (s : BillingStore) (request : String × Int) :
    ∃ x s', (atInstant now).Exec (computeBillingSnapshot request.1 request.2) s x s' :=
  System.exists_exec computeBillingSnapshot_within (fun _ s computes => at_computes computes s) s

/-- The text of a snapshot that is cached under the key of a call is its answer. -/
theorem exec_getBillingSnapshot_of_hit {snapshot : BillingSnapshot Json} {text : String}
    (serialized : serializeBillingSnapshot snapshot = some text)
    (hit : s.cache.lookup (billingSnapshotCacheKey request.1) = some text) :
    (atInstant now).Exec (getBillingSnapshot request.1 request.2) s x s' ↔
      x = .ok snapshot.meaning ∧ s' = s := by
  have parsed := parse_serialize serialized
  have given : text ≠ "" := by
    rintro rfl
    have empty : parseBillingSnapshot "" = none := by decide
    rw [empty] at parsed
    cases parsed
  have read : (truthy (some text)).bind parseBillingSnapshot = some snapshot.meaning := by
    simp [truthy, Option.filter, given, parsed]
  constructor
  · intro ran
    rcases System.exec_performBind.mp ran with ⟨e, _, _, failed⟩ | ⟨cached, _, s₁, answered, rest⟩
    · cases (at_readCache failed).1
    obtain ⟨same, rfl⟩ := at_readCache answered
    rw [hit] at same
    cases Except.ok.inj same
    rw [read] at rest
    exact System.exec_pure.mp rest
  · rintro ⟨rfl, rfl⟩
    refine System.exec_performBind.mpr (.inr ⟨some text, "", s', ?_, ?_⟩)
    · show some (Except.ok (s'.cache.lookup (billingSnapshotCacheKey request.1)), s') = _
      rw [hit]
      rfl
    · rw [read]
      exact .pure

theorem exists_exec_getBillingSnapshot (s : BillingStore) (request : String × Int) :
    ∃ x s', (atInstant now).Exec (getBillingSnapshot request.1 request.2) s x s' := by
  cases hit : (truthy (s.cache.lookup (billingSnapshotCacheKey request.1))).bind
      parseBillingSnapshot with
  | some parsed =>
      refine ⟨.ok parsed, s, System.exec_performBind.mpr (.inr ⟨_, "", s, rfl, ?_⟩)⟩
      rw [hit]
      exact .pure
  | none =>
      obtain ⟨x, s', ran⟩ : ∃ x s', (atInstant now).Exec
          (computeBillingSnapshot request.1 request.2) s x s' := exists_exec_compute s request
      refine ⟨x, s', System.exec_performBind.mpr (.inr ⟨_, "", s, rfl, ?_⟩)⟩
      rw [hit]
      exact ran

/-! ## Who filled a key -/

/-- The calls that filled the keys, after one more call. -/
def Database.fill (db : Database) (fillers : List (String × (String × Int)))
    (request : String × Int) : List (String × (String × Int)) :=
  if (fillers.lookup (billingSnapshotCacheKey request.1)).isSome then fillers
  else match db.findOrganizationByReference request.1 with
    | some organization =>
        if db.answers request then organization.cacheKeys.map (·, request) ++ fillers else fillers
    | none => fillers

/-- The calls that filled the keys, where the cache was empty first. -/
def Database.fillers (db : Database) (requests : List (String × Int)) :
    List (String × (String × Int)) :=
  requests.foldl db.fill []

theorem lookup_map_append {keys : List String} {fillers : List (String × (String × Int))}
    {k : String} : (keys.map (·, request) ++ fillers).lookup k =
      if k ∈ keys then some request else fillers.lookup k := by
  induction keys with
  | nil => rfl
  | cons key keys ih =>
      rw [List.map_cons, List.cons_append, List.lookup_cons, ih]
      by_cases same : k = key
      · simp [same]
      · simp [same, beq_false_of_ne same]

/-- The cache after some calls: every entry is the text of what its filler computed. -/
structure CachedBy (now : Int) (db : Database) (requests : List (String × Int))
    (s : BillingStore) : Prop where
  extends_db : Extends db s.db
  absent : ∀ k, (db.fillers requests).lookup k = none → s.cache.lookup k = none
  entry : ∀ k filler, (db.fillers requests).lookup k = some filler →
    db.answers filler = true ∧ ∃ snapshot text, s.db.snapshot now filler.1 filler.2 = some snapshot ∧
      serializeBillingSnapshot snapshot = some text ∧ s.cache.lookup k = some text

theorem CachedBy.call {db : Database} {before : List (String × Int)} (cached : CachedBy now db before s)
    (ran : (atInstant now).Exec (getBillingSnapshot request.1 request.2) s x s') :
    CachedBy now db (before ++ [request]) s' := by
  have filled : db.fillers (before ++ [request]) = db.fill (db.fillers before) request := by
    rw [Database.fillers, List.foldl_concat]
    rfl
  cases filler : (db.fillers before).lookup (billingSnapshotCacheKey request.1) with
  | some filler =>
      obtain ⟨_, snapshot, text, _, serialized, hit⟩ := cached.entry _ _ filler
      obtain ⟨_, rfl⟩ := (exec_getBillingSnapshot_of_hit serialized hit).mp ran
      have same : db.fillers (before ++ [request]) = db.fillers before := by
        rw [filled, Database.fill, filler]
        rfl
      exact ⟨cached.extends_db, same ▸ cached.absent, same ▸ cached.entry⟩
  | none =>
      rw [exec_getBillingSnapshot_of_miss (cached.absent _ filler)] at ran
      obtain ⟨ext, outcome⟩ := exec_compute ran
      rw [cached.extends_db.answers] at outcome
      have found' : s.db.findOrganizationByReference request.1 =
          db.findOrganizationByReference request.1 := by
        rw [Database.findOrganizationByReference, cached.extends_db.organizations]
        rfl
      rw [found'] at outcome
      rw [Database.fill, filler] at filled
      rcases outcome with ⟨snapshot, text, organization, _, answers, found, computed, serialized,
        entries⟩ | ⟨e, _, fails, kept⟩
      · have same : db.fillers (before ++ [request]) =
            organization.cacheKeys.map (·, request) ++ db.fillers before := by
          rw [filled, found]
          simp [answers]
        refine ⟨cached.extends_db.trans ext, fun k unfilled => ?_, fun k filler its => ?_⟩
        · rw [same, lookup_map_append] at unfilled
          rw [entries]
          split at unfilled
          · cases unfilled
          · rename_i other
            rw [if_neg other, cached.absent k unfilled]
        · rw [same, lookup_map_append] at its
          rw [entries]
          split at its
          · rename_i own
            cases its
            exact ⟨answers, snapshot, text, computed, serialized, if_pos own⟩
          · rename_i other
            obtain ⟨answers', snapshot', text', computed', serialized', hit⟩ :=
              cached.entry k filler its
            exact ⟨answers', snapshot', text', ext.snapshot computed', serialized',
              (if_neg other).trans hit⟩
      · have same : db.fillers (before ++ [request]) = db.fillers before := by
          rw [filled]
          cases db.findOrganizationByReference request.1 with
          | none => rfl
          | some organization => simp [fails]
        refine ⟨cached.extends_db.trans ext, fun k unfilled => ?_, fun k filler its => ?_⟩
        · rw [kept, cached.absent k (same ▸ unfilled)]
        · obtain ⟨answers', snapshot', text', computed', serialized', hit⟩ :=
            cached.entry k filler (same ▸ its)
          exact ⟨answers', snapshot', text', ext.snapshot computed', serialized', kept ▸ hit⟩

/-! ## What a call would compute itself -/

end

/-! ## Every sequence of calls -/

section

variable {now : Int} {db : Database} {requests : List (String × Int)}

theorem exists_serves (now : Int) (db : Database) (requests : List (String × Int)) : ∃ calls s,
    (atInstant now).Serves (fun _ _ => True) { db } calls s ∧ calls.map (·.request) = requests := by
  induction requests using List.reverseRecOn with
  | nil => exact ⟨[], _, .refl, rfl⟩
  | append_singleton before request ih =>
      obtain ⟨calls, s, served, same⟩ := ih
      obtain ⟨x, s', ran⟩ := exists_exec_getBillingSnapshot s request
      exact ⟨_, s', .call served trivial ran, by rw [List.map_append, same]; rfl⟩

end

end Billing
