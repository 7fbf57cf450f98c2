/-
  A deploy that was applied can be rolled back, where the nodes it created can be disabled.
-/
import Mathlib.Data.List.Forall2
import SmartHome.NodeRedAdmin.Diffs

namespace SmartHome.NodeRedAdmin.Planning

open Verif PyValue
open SmartHome.Mqtt (isHex)

/-! ## Retired nodes -/

/-- The nodes that are not among the identifiers. -/
def newNodes (ids : List String) (flows : List Node) : List Node := flows.filter fun n => n.id ∉ ids

section
variable {ids : List String} {flows : List Node} {n a b : Node} {k : String}

theorem retired_ok (h : ∀ n ∈ newNodes ids flows, n.Retirable) :
    retired ids flows = .ok ((newNodes ids flows).map disable) := by
  induction flows with
  | nil => rfl
  | cons n flows ih =>
    unfold newNodes at h ih ⊢
    rw [retired]
    split_ifs with hold
    · rw [List.filter_cons_of_neg (by simpa using hold)] at h ⊢
      exact ih h
    · rw [List.filter_cons_of_pos (by simpa using hold)] at h ⊢
      simp only [bind_ok, need_eq_ok, exists_unit, pure_ok]
      exact ⟨h n List.mem_cons_self, _, ih fun m hm => h m (List.mem_cons_of_mem _ hm), rfl⟩

theorem newNodes_map_id : (newNodes ids flows).map Node.id = (flows.map Node.id).filter fun id => id ∉ ids := by
  rw [newNodes, List.filter_map]
  rfl

theorem disable_id : (disable n).id = n.id := by
  rw [Node.id, Node.id, textAt, textAt, getKey_disable, if_neg (flag_ne n).1.symm]

theorem disable_checked (h : n.Checked) : (disable n).Checked := by
  have htype : (disable n).type = n.type := by
    rw [Node.type, Node.type, textAt, textAt, getKey_disable, if_neg (flag_ne n).2.symm]
  refine ⟨?_, ?_, ?_, ?_⟩
  · rw [disable_id, textAt, getKey_disable, if_neg (flag_ne n).1.symm]
    exact h.id
  · rw [disable_id]
    exact h.nodeId
  · rw [htype, textAt, getKey_disable, if_neg (flag_ne n).2.symm]
    exact h.type
  · rw [← getKey_eq_none, getKey_disable, if_neg]
    · exact getKey_eq_none.2 h.credentials
    · unfold flag
      split_ifs <;> decide

end

/-! ## Flows with one text -/

section
variable [FloatText] {flows flows' : List Node} {a b : Node} {k : String}

/-- Nodes with one text have the same texts in their fields. -/
theorem textAt_eq (ha : (dict a).Distinct) (hb : (dict b).Distinct)
    (h : (PyValue.dict a).raw = (PyValue.dict b).raw) : textAt k a = textAt k b := by
  have hfield := (raw_dict ha hb).1 h k
  unfold textAt
  cases hx : getKey k a with
  | none =>
    rw [hx] at hfield
    rw [Option.map_eq_none_iff.1 hfield.symm]
  | some v =>
    rw [hx] at hfield
    obtain ⟨w, hy, hvw⟩ := Option.map_eq_some_iff.1 hfield.symm
    rw [hy]
    have hcanon := raw_inj.1 hvw
    cases v <;> cases w <;> first | rfl | (cases hcanon; rfl) | cases hcanon

/-- Nodes with one text, where they are dictionaries. -/
def Same (a b : Node) : Prop := (dict a).Distinct ∧ (dict b).Distinct ∧ (PyValue.dict a).raw = (PyValue.dict b).raw

theorem Same.textAt (h : Same a b) : textAt k a = textAt k b := textAt_eq h.1 h.2.1 h.2.2

theorem Same.id (h : Same a b) : a.id = b.id := by rw [Node.id, Node.id, h.textAt]

theorem Same.type (h : Same a b) : a.type = b.type := by rw [Node.type, Node.type, h.textAt]

theorem Same.retirable (h : Same a b) : a.Retirable ↔ b.Retirable := by
  have hz : validId (getKey "z" a) = validId (getKey "z" b) := by
    have htext : (getKey "z" a).bind str? = (getKey "z" b).bind str? := h.textAt
    rw [validId, validId, htext]
  rw [Node.Retirable, Node.Retirable, h.type, hz]

theorem Same.disable (h : Same a b) : Same (disable a) (disable b) := by
  have hflag : flag a = flag b := by rw [flag, flag, h.type]
  have ha : (dict (Planning.disable a)).Distinct := distinct_upsert h.1 distinct_bool
  have hb : (dict (Planning.disable b)).Distinct := distinct_upsert h.2.1 distinct_bool
  refine ⟨ha, hb, (raw_dict ha hb).2 fun k => ?_⟩
  rw [getKey_disable, getKey_disable, hflag]
  split_ifs
  · rfl
  · exact (raw_dict h.1 h.2.1).1 h.2.2 k

/-- Flows with one text have the same nodes, one by one. -/
theorem same_flows (h : ∀ n ∈ flows, (dict n).Distinct) (h' : ∀ n ∈ flows', (dict n).Distinct)
    (hraw : (PyValue.list (flows.map dict)).raw = (PyValue.list (flows'.map dict)).raw) :
    List.Forall₂ Same flows flows' := by
  have hcanon := raw_inj.1 hraw
  rw [canon, canon, list.injEq, canonElems_eq, canonElems_eq, List.map_map, List.map_map] at hcanon
  have hall : List.Forall₂ (fun a b => (dict a).canon = (dict b).canon) flows flows' := by
    rw [← List.forall₂_eq_eq_eq, List.forall₂_map_left_iff, List.forall₂_map_right_iff] at hcanon
    exact hcanon
  clear hcanon hraw
  induction hall with
  | nil => exact .nil
  | cons hhead _ ih =>
    refine .cons ⟨h _ List.mem_cons_self, h' _ List.mem_cons_self, raw_inj.2 hhead⟩ ?_
    exact ih (fun n hn => h n (List.mem_cons_of_mem _ hn)) fun n hn => h' n (List.mem_cons_of_mem _ hn)

/-- The new nodes of two flows with one text. -/
theorem same_newNodes (ids : List String) (h : List.Forall₂ Same flows flows') :
    List.Forall₂ Same (newNodes ids flows) (newNodes ids flows') := by
  unfold newNodes
  induction h with
  | nil => exact .nil
  | @cons a b _ _ hab _ ih =>
    by_cases hold : a.id ∈ ids
    · rw [List.filter_cons_of_neg (by simpa using hold), List.filter_cons_of_neg (by simpa [← hab.id] using hold)]
      exact ih
    · rw [List.filter_cons_of_pos (by simpa using hold), List.filter_cons_of_pos (by simpa [← hab.id] using hold)]
      exact .cons hab ih

theorem same_map_id (h : List.Forall₂ Same flows flows') : flows.map Node.id = flows'.map Node.id := by
  induction h with
  | nil => rfl
  | cons hab _ ih => rw [List.map_cons, List.map_cons, hab.id, ih]

theorem exists_same (h : List.Forall₂ Same flows flows') (ha : a ∈ flows) : ∃ b ∈ flows', Same a b := by
  induction h with
  | nil => exact absurd ha List.not_mem_nil
  | @cons c d _ _ hcd _ ih =>
    rcases List.mem_cons.1 ha with rfl | ha
    · exact ⟨d, List.mem_cons_self, hcd⟩
    · obtain ⟨b, hb, hab⟩ := ih ha
      exact ⟨b, List.mem_cons_of_mem _ hb, hab⟩

/-! ## The reverse plan -/

variable {out : Outside}

/-- The flows that a rollback restores. -/
def restoredFlows (plan : Plan) (flows : List Node) : List Node :=
  plan.beforeFlows ++ (newNodes (plan.beforeFlows.map Node.id) flows).map disable

/-- **A deploy that was applied can be rolled back**, where each node that it created is a tab or a
    node of a tab, and the restored flows are within the bound of a snapshot. -/
theorem rollback_restores {operationId policySha256 rollbackId : String} {base edits fetched : PyData} {now : ℚ}
    {ttl : ℤ} {plan : Plan} {reads : Reads} {receipt : Receipt} {current : Snapshot}
    (hplan : buildPlan out operationId base.1 edits.1 policySha256 now ttl = .ok plan)
    (hpolicy : reads.policy = .ok ()) (hstored : reads.plan = some plan) (hreceipt : reads.receipt = some receipt)
    (happlied : receipt.state = .applied) (hfetched : reads.fetched = .ok fetched.1)
    (hcurrent : snapshot fetched.1 = .ok current) (hrevision : receipt.afterRevision = some current.rev)
    (hlive : (PyValue.list (current.flows.map dict)).raw = (PyValue.list (plan.afterFlows.map dict)).raw)
    (hid : isHex 32 rollbackId = true ∧ rollbackId ≠ operationId)
    (hretirable : ∀ n ∈ newNodes (plan.beforeFlows.map Node.id) plan.afterFlows, n.Retirable)
    (hsize : size (.list ((restoredFlows plan current.flows).map dict)) ≤ 8 * 1024 * 1024)
    (hdiff : CheckedDiff (changeset out current.flows (restoredFlows plan current.flows)))
    (hroom : ∀ plan, reads.register plan = .ok ()) :
    ∃ reverse, rollback out reads operationId rollbackId = .ok reverse ∧ reverse.beforeFlows = current.flows ∧
      (∃ kept, reverse.afterFlows = plan.beforeFlows ++ kept ∧
        List.Forall₂ Same kept ((newNodes (plan.beforeFlows.map Node.id) plan.afterFlows).map disable)) ∧
      ∀ n ∈ plan.afterFlows, n.id ∈ reverse.afterFlows.map Node.id := by
  obtain ⟨hbase, hbefore, hafter, ⟨st, g, created, hedited, hflows⟩, -, -, haction, hsha⟩ := buildPlan_ok hplan
  obtain ⟨hcurrentChecked, -⟩ := snapshot_ok hcurrent
  have hproper : Proper plan.afterFlows :=
    ⟨hafter.nodup, fun n hn => hedited.distinct hbefore.distinct n (hflows ▸ hn)⟩
  have hsame := same_flows (snapshot_proper hcurrent fetched.2).distinct hproper.distinct hlive
  have hnew := same_newNodes (plan.beforeFlows.map Node.id) hsame
  have hids := same_map_id hsame
  -- the created nodes can be disabled, also as they are now
  have hretired : retired (plan.beforeFlows.map Node.id) current.flows =
      .ok ((newNodes (plan.beforeFlows.map Node.id) current.flows).map disable) := by
    refine retired_ok fun n hn => ?_
    obtain ⟨m, hm, hnm⟩ := exists_same hnew hn
    exact hnm.retirable.2 (hretirable m hm)
  -- the restored flows name the nodes of the applied ones
  have hrestoredIds : (restoredFlows plan current.flows).map Node.id = plan.afterFlows.map Node.id := by
    obtain ⟨horder, hcreated⟩ := hedited.order
    have hnewIds : (newNodes (plan.beforeFlows.map Node.id) current.flows).map Node.id = created.map Node.id := by
      rw [newNodes_map_id, hids, hflows, horder, List.filter_append, List.filter_eq_nil_iff.2, List.nil_append,
        List.filter_eq_self.2]
      · intro id hid
        obtain ⟨c, hc, rfl⟩ := List.mem_map.1 hid
        exact decide_eq_true (hcreated c hc)
      · intro id hid
        simpa using hid
    have hdisabled : Node.id ∘ disable = Node.id := funext fun _ => disable_id
    rw [restoredFlows, List.map_append, List.map_map, hdisabled, hnewIds, hflows, horder]
  have hrestored : Snapshot.Checked ⟨current.rev, restoredFlows plan current.flows⟩ := by
    refine ⟨hcurrentChecked.rev, ?_, hsize, ?_, fun n hn => ?_⟩
    · have hlength := congrArg List.length hrestoredIds
      rw [List.length_map, List.length_map] at hlength
      exact hlength.le.trans hafter.length
    · rw [hrestoredIds]
      exact hafter.nodup
    · rcases List.mem_append.1 hn with hn | hn
      · exact (snapshot_ok hbase).1.nodes n hn
      · obtain ⟨m, hm, rfl⟩ := List.mem_map.1 hn
        exact disable_checked (hcurrentChecked.nodes m (List.mem_of_mem_filter hm))
  have hdigest : flowsDigest out current.flows = plan.afterSha256 := by
    rw [hsha, flowsDigest, flowsDigest, digestOf, digestOf, hlive]
  refine ⟨reversePlan out plan operationId rollbackId reads.now current (restoredFlows plan current.flows)
    (((newNodes (plan.beforeFlows.map Node.id) current.flows).map disable).map Node.id), ?_, rfl,
    ⟨(newNodes (plan.beforeFlows.map Node.id) current.flows).map disable, rfl, ?_⟩, fun n hn => ?_⟩
  · simp only [rollback, hpolicy, hstored, hreceipt, hfetched, hcurrent, bind_ok, need_eq_ok, exists_unit, pure_ok,
      orFail_eq_ok, ok_bind]
    exact ⟨plan, rfl, receipt, rfl, ⟨haction, happlied⟩, ⟨hrevision.symm, hdigest⟩, hid, _, hretired,
      ⟨current.rev, restoredFlows plan current.flows⟩, snapshotOf_ok.2 ⟨rfl, hrestored⟩, hdiff, hroom _, rfl⟩
  · rw [List.forall₂_map_left_iff, List.forall₂_map_right_iff]
    exact hnew.imp fun a b hab => hab.disable
  · have hmem : n.id ∈ plan.afterFlows.map Node.id := List.mem_map_of_mem hn
    exact hrestoredIds ▸ hmem

end

/-! ## Rollbacks of a configuration -/

section

local instance : FloatText := wholeText

/-- A comment in a tab is created. -/
def commentEdits : PyData :=
  ⟨.list [.dict [("kind", .str "create"),
    ("node", .dict [("id", .str "c"), ("type", .str "comment"), ("z", .str "a")])]],
    by simp [Distinct, DistinctElems, DistinctMembers]⟩

/-- A configuration node is created. -/
def brokerEdits : PyData :=
  ⟨.list [.dict [("kind", .str "create"), ("node", .dict [("id", .str "c"), ("type", .str "mqtt-broker")])]],
    by simp [Distinct, DistinctElems, DistinctMembers]⟩

/-- The plan was applied, and its flows are live. -/
def sampleReads (plan : Plan) (live : PyValue) : Reads where
  policy := .ok ()
  plan := some plan
  receipt := some {
    operationId := plan.operationId, planSha256 := "", beforeSha256 := plan.beforeSha256
    afterSha256 := plan.afterSha256, action := .apply, state := .applied, afterRevision := some "2"
    collectionError := none, guardBeforeSha256 := "", guardAfterSha256 := none
    credentialsPreservationVerified := true, contextPreservationVerified := true, definitiveNoEffect := false
    loadedConfigurationVerified := true, completedAt := 0 }
  fetched := .ok live
  now := 0
  register _ := .ok ()

/-- The flows that are live after the comment was created. -/
def commentFlows : List Node := [
  [("id", .str "a"), ("type", .str "debug"), ("active", .int 1)],
  [("id", .str "b"), ("type", .str "comment"), ("name", .str "old")],
  [("id", .str "c"), ("type", .str "comment"), ("z", .str "a")]]

def commentLive : PyData :=
  ⟨.dict [("rev", .str "2"), ("flows", .list (commentFlows.map PyValue.dict))],
    by simp [commentFlows, Distinct, DistinctElems, DistinctMembers]⟩

theorem snapshot_commentLive : snapshot commentLive.1 = .ok ⟨"2", commentFlows⟩ :=
  snapshotOf_ok.2 ⟨rfl, ⟨by decide +kernel, by decide, by decide +kernel, by decide +kernel, by decide +kernel⟩⟩

/-- What is checked of a plan by its evaluation. -/
theorem sampled {edits : PyData} (p : Plan → Prop) [DecidablePred p]
    (h : (samplePlan edits).toOption.any (fun plan => decide (p plan)) = true) :
    ∃ plan, samplePlan edits = .ok plan ∧ p plan := by
  cases hplan : samplePlan edits with
  | error e => rw [hplan] at h; cases h
  | ok plan =>
    rw [hplan] at h
    exact ⟨plan, rfl, of_decide_eq_true h⟩

/-- The comment that was created can be rolled back, and is kept. -/
theorem rollback_restores_comment : ∃ plan reverse, samplePlan commentEdits = .ok plan ∧
    rollback sampleOutside (sampleReads plan commentLive.1) (String.ofList (List.replicate 32 'b'))
      (String.ofList (List.replicate 32 'c')) = .ok reverse ∧
    ∀ n ∈ plan.afterFlows, n.id ∈ reverse.afterFlows.map Node.id := by
  obtain ⟨plan, hplan, hlive, hretirable, hsize, hdiff⟩ : ∃ plan, samplePlan commentEdits = .ok plan ∧
      (PyValue.list (commentFlows.map PyValue.dict)).raw =
        (PyValue.list (plan.afterFlows.map PyValue.dict)).raw ∧
      (∀ n ∈ newNodes (plan.beforeFlows.map Node.id) plan.afterFlows, n.Retirable) ∧
      size (.list ((restoredFlows plan commentFlows).map PyValue.dict)) ≤ 8 * 1024 * 1024 ∧
      CheckedDiff (changeset sampleOutside commentFlows (restoredFlows plan commentFlows)) :=
    sampled _ (by decide +kernel)
  have hid : isHex 32 (String.ofList (List.replicate 32 'c')) = true ∧
      String.ofList (List.replicate 32 'c') ≠ String.ofList (List.replicate 32 'b') := by decide +kernel
  have hreads : (sampleReads plan commentLive.1).fetched = .ok commentLive.1 := rfl
  obtain ⟨reverse, hreverse, -, -, hkept⟩ := rollback_restores hplan rfl rfl rfl rfl hreads snapshot_commentLive rfl hlive hid
    hretirable hsize hdiff fun _ => rfl
  exact ⟨plan, reverse, hplan, hreverse, hkept⟩

/-- The reason of a refusal. -/
def reason : Except String Plan → Option String
  | .error e => some e
  | .ok _ => none

/-- A configuration node that was created is not disabled, and the rollback is refused. -/
theorem rollback_refused : ∃ plan, samplePlan brokerEdits = .ok plan ∧
    reason (rollback sampleOutside
      (sampleReads plan (.dict [("rev", .str "2"), ("flows", .list (plan.afterFlows.map dict))]))
      (String.ofList (List.replicate 32 'b')) (String.ofList (List.replicate 32 'c'))) =
        some "configuration_node_quarantine_unavailable" :=
  sampled _ (by decide +kernel)

end

end SmartHome.NodeRedAdmin.Planning
