/-
  The keys of the sessions of the chat bridge.

  * `key_inj`: a session key determines its agent, conversation and options;
  * `under_key`: which keys are taken for keys of a conversation.
-/
import SmartHome.SharedHistory.Sessions

namespace SmartHome.SharedHistory

open Verif

/-! ## Keys -/

section
variable {α : Type} {s : α} {a a' b b' : List α}

theorem first_split (h : s ∉ a) (h' : s ∉ a') (he : a ++ s :: b = a' ++ s :: b') : a = a' ∧ b = b' := by
  induction a generalizing a' with
  | nil =>
    cases a' with
    | nil => exact ⟨rfl, (List.cons.inj he).2⟩
    | cons x a' => exact absurd (List.mem_cons.2 (Or.inl (List.cons.inj he).1)) h'
  | cons x a ih =>
    cases a' with
    | nil => exact absurd (List.mem_cons.2 (Or.inl (List.cons.inj he).1.symm)) h
    | cons x' a' =>
      obtain ⟨rfl, hrest⟩ := List.cons.inj he
      obtain ⟨rfl, hb⟩ := ih (fun hm => h (List.mem_cons_of_mem _ hm)) (fun hm => h' (List.mem_cons_of_mem _ hm)) hrest
      exact ⟨rfl, hb⟩

theorem last_split (h : s ∉ b) (h' : s ∉ b') (he : a ++ s :: b = a' ++ s :: b') : a = a' ∧ b = b' := by
  have hr : b.reverse ++ s :: a.reverse = b'.reverse ++ s :: a'.reverse := by
    simpa using congrArg List.reverse he
  obtain ⟨hb, ha⟩ := first_split (by simpa using h) (by simpa using h') hr
  exact ⟨List.reverse_injective ha, List.reverse_injective hb⟩

end

/-- The names in the table are normalized, and have no colon. -/
theorem codexModels_names : ∀ row ∈ codexModels, ∀ name ∈ row.1 :: row.2,
    normalizeOptional (.str name) = some name ∧ ':' ∉ name.toList := by
  decide +kernel

theorem CodexOptions.names (o : CodexOptions) :
    (normalizeOptional (.str o.model) = some o.model ∧ ':' ∉ o.model.toList) ∧
      normalizeOptional (.str o.reasoningEffort) = some o.reasoningEffort ∧ ':' ∉ o.reasoningEffort.toList := by
  obtain ⟨row, hrow, hmodel, heffort⟩ := o.allowed
  exact ⟨hmodel ▸ codexModels_names row hrow _ List.mem_cons_self,
    codexModels_names row hrow _ (List.mem_cons_of_mem _ heffort)⟩

/-- Options that were validated are validated again as they are. -/
theorem validateCodexOptions_self (o : CodexOptions) :
    validateCodexOptions (.str o.model) (.str o.reasoningEffort) = .ok o := by
  obtain ⟨⟨hmodel, -⟩, heffort, -⟩ := o.names
  obtain ⟨row, hrow, hname, -⟩ := o.allowed
  have hmem : ¬o.model ∉ codexModels.map Prod.fst := not_not.2 (List.mem_map.2 ⟨row, hrow, hname⟩)
  simp only [validateCodexOptions, hmodel, heffort, Option.getD_some, if_neg hmem, dif_pos o.allowed]

/-- The end of a key. -/
def optionsText (options : Option CodexOptions) : String :=
  options.elim "" fun o => ":model=" ++ o.model ++ ":reasoning=" ++ o.reasoningEffort

def Chat.key (x : Chat) : Option String :=
  x.conversationId.map fun c => x.agent.name ++ ":" ++ c ++ optionsText x.options

theorem Chat.sessionKey_eq (x : Chat) : x.sessionKey = .ok x.key := by
  have hoptions := x.options_codex
  unfold Chat.sessionKey Chat.key codexSessionKey
  cases ha : x.agent with
  | claude =>
    rw [ha] at hoptions
    have hnone : x.options = none := by simpa using hoptions
    rw [hnone]
    cases x.conversationId with
    | none => rfl
    | some c => simp [optionsText, Agent.name, String.append_assoc]
  | codex =>
    rw [ha] at hoptions
    obtain ⟨o, ho⟩ := Option.isSome_iff_exists.1 (hoptions.2 rfl)
    rw [ho]
    cases x.conversationId with
    | none => rfl
    | some c =>
      simp only [Option.elim_some, validateCodexOptions_self, ok_bind, pure_eq_ok, optionsText, Agent.name,
        Option.map_some, String.append_assoc]
      rfl

theorem agent_split {a b : Agent} {t u : List Char} (h : a.name.toList ++ ':' :: t = b.name.toList ++ ':' :: u) :
    a = b ∧ t = u := by
  have hcolon : ∀ a : Agent, ':' ∉ a.name.toList := by
    intro a
    cases a <;> simp [Agent.name]
  obtain ⟨hname, htail⟩ := first_split (hcolon a) (hcolon b) h
  refine ⟨?_, htail⟩
  cases a <;> cases b <;> first | rfl | simp [Agent.name] at hname

/-- The keys of other conversations that are taken for keys of a conversation. -/
def Shadows (c : String) (x : Chat) : Prop := ∃ d ∈ x.conversationId, (c ++ ":").toList <+: d.toList ∨
  ∃ o ∈ x.options, c = d ++ ":model=" ++ o.model ∨
    c = d ++ ":model=" ++ o.model ++ ":reasoning=" ++ o.reasoningEffort

theorem optionsText_some (o : CodexOptions) : (optionsText (some o)).toList =
    ':' :: ("model=".toList ++ o.model.toList) ++ ':' :: ("reasoning=".toList ++ o.reasoningEffort.toList) := by
  have hmodel : ":model=".toList = ':' :: "model=".toList := by simp
  have hreasoning : ":reasoning=".toList = ':' :: "reasoning=".toList := by simp
  simp only [optionsText, Option.elim_some, String.toList_append, hmodel, hreasoning, List.cons_append,
    List.append_assoc]

theorem colon_notMem (o : CodexOptions) : ':' ∉ "model=".toList ++ o.model.toList ∧
    ':' ∉ "reasoning=".toList ++ o.reasoningEffort.toList := by
  have hnames := o.names
  have hmodel : ':' ∉ "model=".toList := by simp
  have hreasoning : ':' ∉ "reasoning=".toList := by simp
  exact ⟨fun h => (List.mem_append.1 h).elim hmodel hnames.1.2,
    fun h => (List.mem_append.1 h).elim hreasoning hnames.2.2⟩

theorem Chat.key_toList {x : Chat} {c k : String} (hc : x.conversationId = some c) (hk : x.key = some k) :
    k.toList = x.agent.name.toList ++ ':' :: (c.toList ++ (optionsText x.options).toList) := by
  rw [Chat.key, hc, Option.map_some, Option.some.injEq] at hk
  rw [← hk]
  simp

theorem Chat.conversation_of_key {x : Chat} {k : String} (hk : x.key = some k) : ∃ c, x.conversationId = some c :=
  ⟨_, (Option.map_eq_some_iff.1 hk).choose_spec.1⟩

theorem Chat.ext_of {x y : Chat} (ha : x.agent = y.agent) (hc : x.conversationId = y.conversationId)
    (ho : x.options = y.options) : x = y := by
  cases x
  cases y
  cases ha
  cases hc
  cases ho
  rfl

/-- **A session key determines its agent, conversation and options.** -/
theorem key_inj {x y : Chat} {k : String} (hx : x.key = some k) (hy : y.key = some k) : x = y := by
  obtain ⟨c, hc⟩ := Chat.conversation_of_key hx
  obtain ⟨d, hd⟩ := Chat.conversation_of_key hy
  obtain ⟨ha, htail⟩ := agent_split ((Chat.key_toList hc hx).symm.trans (Chat.key_toList hd hy))
  have hcase : x.options.isSome = true ↔ y.options.isSome = true := by
    rw [x.options_codex, y.options_codex, ha]
  cases hox : x.options with
  | none =>
    have hoy : y.options = none := by
      rw [hox] at hcase
      cases hy' : y.options with
      | none => rfl
      | some o => rw [hy'] at hcase; exact absurd (hcase.2 rfl) (by simp)
    rw [hox, hoy] at htail
    have hcd : c = d := String.toList_injective (List.append_cancel_right htail)
    exact Chat.ext_of ha (by rw [hc, hd, hcd]) (hox.trans hoy.symm)
  | some o =>
    rw [hox] at hcase
    obtain ⟨o', hoy⟩ := Option.isSome_iff_exists.1 (hcase.1 rfl)
    rw [hox, hoy, optionsText_some, optionsText_some, ← List.append_assoc, ← List.append_assoc] at htail
    -- the effort is what stands after the last colon, and the model what stands before it
    obtain ⟨hrest, heffort⟩ := last_split (colon_notMem o).2 (colon_notMem o').2 htail
    obtain ⟨hcd, hmodel⟩ := last_split (colon_notMem o).1 (colon_notMem o').1 hrest
    have hcd' : c = d := String.toList_injective hcd
    have hm : o.model = o'.model := String.toList_injective (List.append_cancel_left hmodel)
    have he : o.reasoningEffort = o'.reasoningEffort := String.toList_injective (List.append_cancel_left heffort)
    refine Chat.ext_of ha (by rw [hc, hd, hcd']) (hox.trans (Eq.trans ?_ hoy.symm))
    cases o
    cases o'
    cases hm
    cases he
    rfl

/-- Texts that go on after a colon, where the end has two colons. -/
theorem prefix_colon {c d a b : List Char} (ha : ':' ∉ a) (hb : ':' ∉ b) :
    c ++ [':'] <+: d ++ (':' :: a ++ ':' :: b) ↔ c = d ∨ c ++ [':'] <+: d ∨ c = d ++ ':' :: a := by
  constructor
  · rintro ⟨rest, hrest⟩
    rw [List.append_assoc, List.singleton_append, List.append_eq_append_iff] at hrest
    rcases hrest with ⟨e, rfl, hrest⟩ | ⟨e, rfl, hrest⟩
    · cases e with
      | nil => exact Or.inl (by simp)
      | cons x e =>
        obtain ⟨rfl, -⟩ := List.cons.inj hrest
        exact Or.inr (Or.inl ⟨e, by simp⟩)
    · cases e with
      | nil => exact Or.inl (by simp)
      | cons x e =>
        -- the colon is the second one of the end
        rw [List.cons_append, List.cons_append] at hrest
        obtain ⟨rfl, hend⟩ := List.cons.inj hrest
        obtain ⟨rfl, -, -⟩ := (List.append_cons_inj_of_notMem ha hb).1 hend
        exact Or.inr (Or.inr rfl)
  · rintro (rfl | h | rfl)
    · exact ⟨a ++ ':' :: b, by simp⟩
    · exact h.trans (List.prefix_append _ _)
    · exact ⟨b, by simp⟩

theorem under_iff {pre key : String} : Bridge.Under pre key ↔
    key.toList = pre.toList ∨ pre.toList ++ [':'] <+: key.toList := by
  rw [Bridge.Under, String.toList_append, ← String.toList_inj]
  rfl

/-- **The keys that are taken for keys of a conversation.** -/
theorem under_key {x : Chat} {a : Agent} {c k : String} (hk : x.key = some k) :
    Bridge.Under (a.name ++ ":" ++ c) k ↔ x.agent = a ∧ (x.conversationId = some c ∨ Shadows c x) := by
  obtain ⟨d, hd⟩ := Chat.conversation_of_key hk
  have hpre : (a.name ++ ":" ++ c).toList = a.name.toList ++ ':' :: c.toList := by simp
  have hcolon : (c ++ ":").toList = c.toList ++ [':'] := by simp
  -- what is after the agent
  have htail : Bridge.Under (a.name ++ ":" ++ c) k ↔ x.agent = a ∧
      (d.toList ++ (optionsText x.options).toList = c.toList ∨
        c.toList ++ [':'] <+: d.toList ++ (optionsText x.options).toList) := by
    rw [under_iff, hpre, Chat.key_toList hd hk]
    constructor
    · rintro (h | ⟨rest, h⟩)
      · obtain ⟨ha, h⟩ := agent_split h
        exact ⟨ha, Or.inl h⟩
      · simp only [List.append_assoc, List.cons_append] at h
        obtain ⟨ha, h⟩ := agent_split h
        exact ⟨ha.symm, Or.inr ⟨rest, by simpa using h⟩⟩
    · rintro ⟨rfl, h | ⟨rest, h⟩⟩
      · exact Or.inl (by rw [h])
      · exact Or.inr ⟨rest, by rw [← h]; simp⟩
  rw [htail, hd]
  refine and_congr_right fun _ => ?_
  have hshadows : Shadows c x ↔ c.toList ++ [':'] <+: d.toList ∨ ∃ o ∈ x.options,
      c = d ++ ":model=" ++ o.model ∨ c = d ++ ":model=" ++ o.model ++ ":reasoning=" ++ o.reasoningEffort := by
    simp [Shadows, hd, hcolon]
  rw [hshadows, Option.some.injEq, ← String.toList_inj]
  cases hoptions : x.options with
  | none => simp [optionsText]
  | some o =>
    obtain ⟨hmodel, heffort⟩ := colon_notMem o
    rw [optionsText_some, prefix_colon hmodel heffort]
    have h1 : c = d ++ ":model=" ++ o.model ↔ c.toList = d.toList ++ ':' :: ("model=".toList ++ o.model.toList) := by
      rw [← String.toList_inj]
      simp
    have h2 : c = d ++ ":model=" ++ o.model ++ ":reasoning=" ++ o.reasoningEffort ↔
        d.toList ++ (':' :: ("model=".toList ++ o.model.toList) ++
          ':' :: ("reasoning=".toList ++ o.reasoningEffort.toList)) = c.toList := by
      rw [← String.toList_inj, eq_comm]
      simp
    have hone : (∃ o' ∈ some o, c = d ++ ":model=" ++ o'.model ∨
        c = d ++ ":model=" ++ o'.model ++ ":reasoning=" ++ o'.reasoningEffort) ↔
          c = d ++ ":model=" ++ o.model ∨ c = d ++ ":model=" ++ o.model ++ ":reasoning=" ++ o.reasoningEffort := by
      simp
    rw [hone, h1, h2]
    constructor
    · rintro (h | h | h | h)
      · exact Or.inr (Or.inr (Or.inr h))
      · exact Or.inl h.symm
      · exact Or.inr (Or.inl h)
      · exact Or.inr (Or.inr (Or.inl h))
    · rintro (h | h | h | h)
      · exact Or.inr (Or.inl h.symm)
      · exact Or.inr (Or.inr (Or.inl h))
      · exact Or.inr (Or.inr (Or.inr h))
      · exact Or.inl h

theorem Shadows.ne {x : Chat} {c : String} (h : Shadows c x) : x.conversationId ≠ some c := by
  obtain ⟨d, hd, hshadows⟩ := h
  rw [hd]
  intro hdc
  obtain rfl := Option.some.inj hdc
  have hpos : 0 < ":model=".length := by
    rw [← String.length_toList]
    simp
  rcases hshadows with hstarts | ⟨o, -, heq | heq⟩
  · have hlength := hstarts.length_le
    simp at hlength
  · have hlength := congrArg String.length heq
    rw [String.length_append, String.length_append] at hlength
    omega
  · have hlength := congrArg String.length heq
    simp only [String.length_append] at hlength
    omega

theorem agentOf_name (a : Agent) : agentOf a.name = some a := by
  cases a <;> simp [agentOf, Agent.name]

theorem Agent.name_ne (a : Agent) : a.name ≠ "" := by
  cases a <;> simp [Agent.name]

end SmartHome.SharedHistory
