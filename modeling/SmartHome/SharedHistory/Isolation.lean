/-
  Conversations that share a bridge.

  Clearing a conversation is isolated exactly where no other conversation that is shadowed by it
  has a request or a session (`isolated_iff`); the others are touched (`clearing_leaks`).
-/
import SmartHome.SharedHistory.Keys

namespace SmartHome.SharedHistory

open Verif

/-! ## The turns of a file -/

/-- The turns that a reader finds. -/
def turnsOf : File → List Json
  | none => []
  | some contents => (splitLines (decodeUtf8 contents)).filterMap record

/-- The turn is of the conversation. -/
def ofConversation (agent conversationId : String) (turn : Json) : Bool :=
  turn.get? "agent" = some (.str agent) && turn.get? "conversation_id" = some (.str conversationId)

/-- The file is made of whole lines. -/
def Whole (file : File) : Prop :=
  (∃ log, Holds file log) ∧ (file.getD [] = [] ∨ (file.getD []).getLast? = some 10)

section
variable {file : File} {log : List Turn} {t : Turn} {agent conversationId : String}

theorem Holds.turnsOf (h : Holds file log) : turnsOf file = log.map Turn.toJson := by
  obtain ⟨rows, tail, h⟩ := h
  cases file with
  | none =>
    rw [h.of_none]
    rfl
  | some bs => rw [SharedHistory.turnsOf, h.lines, h.records]

theorem whole_none : Whole none := ⟨⟨[], holds_none⟩, Or.inl rfl⟩

theorem Whole.append (h : Whole file) : Whole (appendTurn file t (utf8 (t.text ++ ['\n'])).length) := by
  obtain ⟨⟨log, hlog⟩, hend⟩ := h
  refine ⟨⟨_, holds_append hlog (Or.inr hend)⟩, Or.inr ?_⟩
  rw [appendTurn, Option.getD_some, List.take_length, utf8_append, ← List.append_assoc]
  have hlast : utf8 ['\n'] = [10] := by decide
  rw [hlast, List.getLast?_append_of_ne_nil _ (by simp)]
  rfl

theorem Whole.clear (h : Whole file) : Whole (clearTurns agent conversationId file).2 := by
  obtain ⟨⟨log, hlog⟩, hend⟩ := h
  refine ⟨⟨_, holds_clear hlog agent conversationId⟩, ?_⟩
  unfold clearTurns
  split_ifs with hempty
  · exact hend
  · cases file with
    | none => exact Or.inl rfl
    | some bs =>
      dsimp only [Option.getD_some]
      split_ifs with hrows
      · exact Or.inl rfl
      · right
        have hlast : utf8 ['\n'] = [10] := by decide
        rw [utf8_append, hlast, List.getLast?_append_of_ne_nil _ (by simp)]
        rfl

/-- **Clearing removes exactly the turns of the conversation.** -/
theorem Whole.turnsOf_clear (h : Whole file) (hagent : agent ≠ "") (hid : conversationId ≠ "") :
    turnsOf (clearTurns agent conversationId file).2 =
      (turnsOf file).filter fun turn => !ofConversation agent conversationId turn := by
  obtain ⟨⟨log, hlog⟩, -⟩ := h
  rw [(holds_clear hlog agent conversationId).turnsOf, hlog.turnsOf, keep, if_neg (by simp [hagent, hid]),
    List.filter_map]
  congr 1
  refine List.filter_congr fun t _ => ?_
  have ha : t.toJson.get? "agent" = some t.agent := by simp [Turn.toJson, Json.get?]
  have hc : t.toJson.get? "conversation_id" = some t.conversationId := by simp [Turn.toJson, Json.get?]
  simp [ofConversation, ha, hc, Turn.In]

end

namespace Bridge

/-! ## Runs -/

/-- The queues and the requests under way. -/
structure Queued (st : Bridge) : Prop where
  key : ∀ t ∈ st.pending, t.key = t.chat.key
  lt : ∀ t ∈ st.pending, t.id < st.next
  ids : ∀ s ∈ st.pending, ∀ t ∈ st.pending, s.id = t.id → s = t
  /-- The last request of a queue is under way, -/
  last : ∀ q ∈ st.queues, ∃ t ∈ st.pending, t.key = some q.1 ∧ t.id = q.2
  /-- each request with a key is in the queue of its key, -/
  queue : ∀ t ∈ st.pending, ∀ k, t.key = some k → ∃ q ∈ st.queues, q.1 = k
  bound : ∀ t ∈ st.pending, ∀ q ∈ st.queues, t.key = some q.1 → t.id ≤ q.2
  /-- and it waits while there is one before it. -/
  order : ∀ s ∈ st.pending, ∀ t ∈ st.pending, ∀ k, s.key = some k → t.key = some k → s.id < t.id →
    ∃ p ∈ st.pending, t.previous = some p.id ∧ p.key = some k ∧ s.id ≤ p.id

structure Sound (st : Bridge) : Prop extends st.Queued where
  sessions : ∀ s ∈ st.sessions, ∃ x : Chat, x.key = some s.1
  file : Whole st.file

variable {st st' : Bridge} {t : Ticket}

theorem Sound.start : Sound ⟨none, [], [], [], 0⟩ := by
  refine ⟨⟨?_, ?_, ?_, ?_, ?_, ?_, ?_⟩, ?_, whole_none⟩ <;> intro x hx <;> cases hx

theorem sessions_set {key : Option String} {sessionId : Json} {s : String × Json}
    (hs : s ∈ (st.setSession key sessionId).sessions) : s ∈ st.sessions ∨ key = some s.1 := by
  unfold setSession at hs
  cases key with
  | none => exact Or.inl hs
  | some k =>
    dsimp only at hs
    split_ifs at hs with h
    · rcases mem_upsert.1 hs with hs | rfl
      · exact Or.inl hs.1
      · exact Or.inr rfl
    · exact Or.inl hs

theorem sessions_delete {key : Option String} {s : String × Json} (hs : s ∈ (st.deleteSession key).sessions) :
    s ∈ st.sessions := by
  cases key with
  | none => exact hs
  | some k => exact List.mem_of_mem_filter hs

theorem Queued.arrive (h : st.Queued) {chat : Chat} {prompt : Json} {uuid : {u : String // u ≠ ""}}
    {timestamp : String} : (st.arrive chat chat.key prompt uuid timestamp).Queued := by
  set new : Ticket := ⟨st.next, chat, chat.key, (chat.key.bind fun k => lookup Prod.fst k st.queues).map Prod.snd,
    (turnOf chat none uuid timestamp (st.getSession chat.key) prompt (.str "") "pending").id, prompt, false⟩ with hnew
  have hmem : ∀ {s}, s ∈ (st.arrive chat chat.key prompt uuid timestamp).pending ↔ s ∈ st.pending ∨ s = new :=
    mem_concat
  have hqueue : ∀ {q}, q ∈ (st.arrive chat chat.key prompt uuid timestamp).queues ↔
      (q ∈ st.queues ∧ chat.key ≠ some q.1) ∨ (chat.key = some q.1 ∧ q.2 = st.next) := by
    intro q
    simp only [Bridge.arrive]
    cases chat.key with
    | none => simp
    | some k =>
      rw [Option.elim_some, mem_upsert, Option.some.injEq, Prod.ext_iff]
      simp only [ne_eq, Option.some.injEq, eq_comm (a := k)]
  refine ⟨fun s hs => ?_, fun s hs => ?_, fun s hs t ht hid => ?_, fun q hq => ?_, fun s hs k hk => ?_,
    fun s hs q hq hk => ?_, fun s hs t ht k hsk htk hlt => ?_⟩
  · rcases hmem.1 hs with hs | rfl
    · exact h.key s hs
    · rfl
  · rcases hmem.1 hs with hs | rfl
    · exact Nat.lt_succ_of_lt (h.lt s hs)
    · exact Nat.lt_succ_self st.next
  · rcases hmem.1 hs with hs | rfl <;> rcases hmem.1 ht with ht | rfl
    · exact h.ids s hs t ht hid
    · exact absurd hid (Nat.ne_of_lt (h.lt s hs))
    · exact absurd hid (Nat.ne_of_gt (h.lt t ht))
    · rfl
  · rcases hqueue.1 hq with ⟨hq, -⟩ | ⟨hk, hid⟩
    · obtain ⟨t, ht, htk, hid⟩ := h.last q hq
      exact ⟨t, hmem.2 (Or.inl ht), htk, hid⟩
    · exact ⟨new, hmem.2 (Or.inr rfl), hk, hid.symm⟩
  · by_cases hchat : chat.key = some k
    · exact ⟨(k, st.next), hqueue.2 (Or.inr ⟨hchat, rfl⟩), rfl⟩
    · rcases hmem.1 hs with hs | rfl
      · obtain ⟨q, hq, rfl⟩ := h.queue s hs k hk
        exact ⟨q, hqueue.2 (Or.inl ⟨hq, hchat⟩), rfl⟩
      · exact absurd hk hchat
  · rcases hqueue.1 hq with ⟨hq, hne⟩ | ⟨-, hid⟩
    · rcases hmem.1 hs with hs | rfl
      · exact h.bound s hs q hq hk
      · exact absurd hk hne
    · rw [hid]
      rcases hmem.1 hs with hs | rfl
      · exact (h.lt s hs).le
      · exact le_rfl
  · rcases hmem.1 ht with ht | rfl
    · rcases hmem.1 hs with hs | rfl
      · obtain ⟨p, hp, hprevious⟩ := h.order s hs t ht k hsk htk hlt
        exact ⟨p, hmem.2 (Or.inl hp), hprevious⟩
      · exact absurd hlt (Nat.not_lt_of_lt (h.lt t ht))
    · rcases hmem.1 hs with hs | rfl
      · -- the new request waits for the last one of the queue
        obtain ⟨q, hq, hqk⟩ := h.queue s hs k hsk
        cases hlookup : lookup Prod.fst k st.queues with
        | none => exact absurd hqk (lookup_eq_none.1 hlookup q hq)
        | some q' =>
          obtain ⟨hq', hqk'⟩ := lookup_eq_some hlookup
          obtain ⟨p, hp, hpk, hpid⟩ := h.last q' hq'
          rw [hqk'] at hpk
          refine ⟨p, hmem.2 (Or.inl hp), ?_, hpk, hpid ▸ h.bound s hs q' hq' (hqk'.symm ▸ hsk)⟩
          have hkey : chat.key = some k := htk
          rw [hnew, hkey, Option.bind_some, hlookup, hpid]
          rfl
      · exact absurd hlt (lt_irrefl _)

theorem Queued.leave (h : st.Queued) (ht : t ∈ st.pending) (hruns : st.Runs t) : (st.leave t).Queued := by
  -- a request that runs is the first of its queue
  have hfirst : ∀ s ∈ st.pending, ∀ k, s.key = some k → t.key = some k → t.id ≤ s.id := by
    intro s hs k hsk htk
    by_contra hlt
    obtain ⟨p, hp, hprevious, -⟩ := h.order s hs t ht k hsk htk (Nat.lt_of_not_le hlt)
    exact hruns p.id hprevious p hp rfl
  have hmem : ∀ {s}, s ∈ (st.leave t).pending ↔ s ∈ st.pending ∧ s.id ≠ t.id := by
    intro s
    simp [Bridge.leave]
  have hqueue : ∀ {q}, q ∈ (st.leave t).queues ↔ q ∈ st.queues ∧ (some q.1 ≠ t.key ∨ q.2 ≠ t.id) := by
    intro q
    simp [Bridge.leave]
  refine ⟨fun s hs => h.key s (hmem.1 hs).1, fun s hs => h.lt s (hmem.1 hs).1,
    fun s hs u hu => h.ids s (hmem.1 hs).1 u (hmem.1 hu).1, fun q hq => ?_, fun s hs k hk => ?_,
    fun s hs q hq hk => h.bound s (hmem.1 hs).1 q (hqueue.1 hq).1 hk, fun s hs u hu k hsk huk hlt => ?_⟩
  · obtain ⟨hq, hne⟩ := hqueue.1 hq
    obtain ⟨s, hs, hsk, hsid⟩ := h.last q hq
    refine ⟨s, hmem.2 ⟨hs, fun hid => ?_⟩, hsk, hsid⟩
    obtain rfl := h.ids s hs t ht hid
    exact hne.elim (fun hne => hne hsk.symm) fun hne => hne hsid.symm
  · obtain ⟨hs, hne⟩ := hmem.1 hs
    obtain ⟨q, hq, rfl⟩ := h.queue s hs k hk
    refine ⟨q, hqueue.2 ⟨hq, ?_⟩, rfl⟩
    by_contra hlast
    obtain ⟨htk, hid⟩ := not_or.1 hlast
    have hle := h.bound s hs q hq hk
    rw [not_not.1 hid] at hle
    exact hne (le_antisymm hle (hfirst s hs q.1 hk (not_not.1 htk).symm))
  · obtain ⟨hs', hsne⟩ := hmem.1 hs
    obtain ⟨p, hp, hprevious, hpk, hle⟩ := h.order s hs' u (hmem.1 hu).1 k hsk huk hlt
    refine ⟨p, hmem.2 ⟨hp, fun hid => ?_⟩, hprevious, hpk, hle⟩
    obtain rfl := h.ids p hp t ht hid
    exact hsne (le_antisymm hle (hfirst s hs' k hsk hpk))

theorem Queued.retry (h : st.Queued) : (st.retry t).Queued := by
  set mark : Ticket → Ticket := fun s => if s.id = t.id then { s with retried := true } else s with hmark
  have hpending : (st.retry t).pending = st.pending.map mark := rfl
  have hqueues : (st.retry t).queues = st.queues := by
    unfold Bridge.retry deleteSession
    cases t.key <;> rfl
  have hnext : (st.retry t).next = st.next := by
    unfold Bridge.retry deleteSession
    cases t.key <;> rfl
  have hsame : ∀ s, (mark s).id = s.id ∧ (mark s).key = s.key ∧ (mark s).chat = s.chat ∧
      (mark s).previous = s.previous := by
    intro s
    rw [hmark]
    dsimp only
    split_ifs <;> exact ⟨rfl, rfl, rfl, rfl⟩
  have hall : ∀ {p : Ticket → Prop}, (∀ s ∈ (st.retry t).pending, p s) ↔ ∀ s ∈ st.pending, p (mark s) := by
    intro p
    rw [hpending, List.forall_mem_map]
  refine ⟨hall.2 fun s hs => ?_, hall.2 fun s hs => ?_, hall.2 fun s hs => hall.2 fun u hu hid => ?_, ?_,
    hall.2 fun s hs k hk => ?_, hall.2 fun s hs q hq hk => ?_, hall.2 fun s hs => hall.2 fun u hu k hsk huk hlt => ?_⟩
  · rw [(hsame s).2.1, (hsame s).2.2.1]
    exact h.key s hs
  · rw [(hsame s).1, hnext]
    exact h.lt s hs
  · rw [(hsame s).1, (hsame u).1] at hid
    rw [h.ids s hs u hu hid]
  · intro q hq
    rw [hqueues] at hq
    obtain ⟨s, hs, hk, hid⟩ := h.last q hq
    exact ⟨mark s, List.mem_map_of_mem hs, (hsame s).2.1.trans hk, (hsame s).1.trans hid⟩
  · rw [(hsame s).2.1] at hk
    rw [hqueues]
    exact h.queue s hs k hk
  · rw [hqueues] at hq
    rw [(hsame s).2.1] at hk
    rw [(hsame s).1]
    exact h.bound s hs q hq hk
  · rw [(hsame s).2.1] at hsk
    rw [(hsame u).2.1] at huk
    rw [(hsame s).1, (hsame u).1] at hlt
    obtain ⟨p, hp, hprevious, hpk, hle⟩ := h.order s hs u hu k hsk huk hlt
    refine ⟨mark p, List.mem_map_of_mem hp, ?_, (hsame p).2.1.trans hpk, ?_⟩
    · rw [(hsame u).2.2.2, (hsame p).1]
      exact hprevious
    · rw [(hsame s).1, (hsame p).1]
      exact hle

/-- The parts of a state that the queues are about. -/
theorem Queued.congr (h : st.Queued) (hpending : st'.pending = st.pending) (hqueues : st'.queues = st.queues)
    (hnext : st'.next = st.next) : st'.Queued := by
  cases st
  cases st'
  cases hpending
  cases hqueues
  cases hnext
  exact ⟨h.key, h.lt, h.ids, h.last, h.queue, h.bound, h.order⟩

theorem endSession_frame (st : Bridge) (t : Ticket) (e : Ending) : (st.endSession t e).pending = st.pending ∧
    (st.endSession t e).queues = st.queues ∧ (st.endSession t e).next = st.next ∧
    (st.endSession t e).file = st.file := by
  cases e with
  | success sessionId =>
    unfold endSession setSession
    cases t.key with
    | none => exact ⟨rfl, rfl, rfl, rfl⟩
    | some k =>
      dsimp only
      split_ifs <;> exact ⟨rfl, rfl, rfl, rfl⟩
  | failure timedOut =>
    unfold endSession deleteSession
    dsimp only
    split_ifs
    · cases t.key <;> exact ⟨rfl, rfl, rfl, rfl⟩
    · exact ⟨rfl, rfl, rfl, rfl⟩

theorem sessions_end {e : Ending} {s : String × Json} (hs : s ∈ (st.endSession t e).sessions) :
    s ∈ st.sessions ∨ t.key = some s.1 := by
  cases e with
  | success => exact sessions_set hs
  | failure timedOut =>
    unfold endSession at hs
    dsimp only at hs
    split_ifs at hs
    · exact Or.inl (sessions_delete hs)
    · exact Or.inl hs

theorem Sound.finish (h : st.Sound) (ht : t ∈ st.pending) (hruns : st.Runs t) (uuid : {u : String // u ≠ ""})
    (timestamp : String) (e : Ending) : (st.finish t uuid timestamp e).Sound := by
  obtain ⟨hpending, hqueues, hnext, hfile⟩ := endSession_frame st t e
  have hended : (st.endSession t e).Queued := h.toQueued.congr hpending hqueues hnext
  have hleft := hended.leave (hpending.symm ▸ ht) (fun p hp s hs => hruns p hp s (hpending ▸ hs))
  refine ⟨hleft.congr rfl rfl rfl, fun s hs => ?_, ?_⟩
  · rcases sessions_end (e := e) hs with hs | hk
    · exact h.sessions s hs
    · exact ⟨t.chat, (h.key t ht).symm.trans hk⟩
  · have hwhole : Whole ((st.endSession t e).leave t).file := hfile.symm ▸ h.file
    exact hwhole.append

/-- What the clearing of a conversation changes. -/
theorem deleteHistory_cases (st : Bridge) (agent conversationId : Option String) :
    (st.deleteHistory agent conversationId).2 = st ∨ ∃ file sessions,
      (st.deleteHistory agent conversationId).2 = { st with file, sessions } ∧ sessions ⊆ st.sessions ∧
      (Whole st.file → Whole file) := by
  unfold deleteHistory
  split
  · rename_i a c _ _
    split_ifs with hactive
    · exact Or.inl rfl
    · right
      dsimp only
      unfold deleteSessionsForConversation
      split_ifs
      · exact ⟨_, _, rfl, List.Subset.refl _, fun h => h.clear⟩
      · exact ⟨_, _, rfl, List.filter_sublist.subset, fun h => h.clear⟩
  · exact Or.inl rfl

theorem Sound.step (h : st.Sound) (hstep : Step st st') : st'.Sound := by
  cases hstep with
  | @chat payload chat prompt key uuid timestamp hpayload hkey =>
    obtain rfl := Except.ok.inj (chat.sessionKey_eq.symm.trans hkey)
    exact ⟨h.toQueued.arrive, h.sessions, h.file.append⟩
  | retry ht hruns hagent hretried =>
    refine ⟨h.toQueued.retry, fun s hs => h.sessions s (sessions_delete hs), ?_⟩
    have hfile : ∀ key, (st.deleteSession key).file = st.file := fun key => by cases key <;> rfl
    exact (hfile _).symm ▸ h.file
  | finish uuid timestamp e ht hruns => exact h.finish ht hruns uuid timestamp e
  | delete agent conversationId =>
    rcases deleteHistory_cases st agent conversationId with hsame | ⟨file, sessions, hnew, hsub, hfile⟩
    · rw [hsame]
      exact h
    · rw [hnew]
      exact ⟨h.toQueued.congr rfl rfl rfl, fun s hs => h.sessions s (hsub hs), hfile h.file⟩
  | restart =>
    refine ⟨⟨?_, ?_, ?_, ?_, ?_, ?_, ?_⟩, fun s hs => h.sessions s (List.mem_of_mem_filter hs), h.file⟩ <;>
      exact fun x hx => absurd hx List.not_mem_nil

/-- **What holds in every run.** -/
theorem sound_of_reachable (h : machine.Reachable st) : st.Sound := by
  refine Machine.Invariant.reachable (p := Sound) ⟨fun s hs => ?_, fun s s' _ hs hstep => hs.step hstep⟩ h
  obtain rfl : s = ⟨none, [], [], [], 0⟩ := hs
  exact Sound.start

/-! ## Clearing a conversation -/

/-- A request of the conversation is queued or runs. -/
def Active (st : Bridge) (a : Agent) (c : String) : Prop :=
  ∃ t ∈ st.pending, t.chat.agent = a ∧ t.chat.conversationId = some c

/-- **Clearing a conversation is isolated.** -/
structure Isolated (st : Bridge) (a : Agent) (c : String) : Prop where
  /-- It is refused exactly while a request of the conversation is under way, -/
  refused : (st.deleteHistory (some a.name) (some c)).1 = .refused 409 "conversation is active" ↔ st.Active a c
  unchanged : st.Active a c → (st.deleteHistory (some a.name) (some c)).2 = st
  /-- otherwise it removes exactly the turns of the conversation -/
  turns : ¬st.Active a c → turnsOf (st.deleteHistory (some a.name) (some c)).2.file =
    (turnsOf st.file).filter fun turn => !ofConversation a.name c turn
  /-- and its sessions, of all options. -/
  sessions : ¬st.Active a c → ∀ x : Chat, ∀ k ∈ x.key,
    lookup Prod.fst k (st.deleteHistory (some a.name) (some c)).2.sessions =
      if x.agent = a ∧ x.conversationId = some c then none else lookup Prod.fst k st.sessions

/-- No other conversation with such keys has a request or a session. -/
def Unshadowed (st : Bridge) (a : Agent) (c : String) : Prop := ∀ x : Chat, x.agent = a → Shadows c x →
  (∀ t ∈ st.pending, t.chat ≠ x) ∧ ∀ s ∈ st.sessions, x.key ≠ some s.1

section
variable {a : Agent} {c : String} {x : Chat}

theorem Sound.caught (h : st.Sound) : (∃ q ∈ st.queues, Under (a.name ++ ":" ++ c) q.1) ↔
    ∃ t ∈ st.pending, t.chat.agent = a ∧ (t.chat.conversationId = some c ∨ Shadows c t.chat) := by
  constructor
  · rintro ⟨q, hq, hunder⟩
    obtain ⟨t, ht, hk, -⟩ := h.last q hq
    exact ⟨t, ht, (under_key ((h.key t ht).symm.trans hk)).1 hunder⟩
  · rintro ⟨t, ht, hchat⟩
    -- a request that is caught has a conversation, and so a key
    obtain ⟨d, hd⟩ : ∃ d, t.chat.conversationId = some d := by
      rcases hchat.2 with hc | ⟨d, hd, -⟩
      · exact ⟨c, hc⟩
      · exact ⟨d, hd⟩
    have hkey : t.chat.key = some (t.chat.agent.name ++ ":" ++ d ++ optionsText t.chat.options) := by
      rw [Chat.key, hd, Option.map_some]
    obtain ⟨q, hq, hqk⟩ := h.queue t ht _ ((h.key t ht).trans hkey)
    exact ⟨q, hq, (under_key (hqk ▸ hkey)).2 hchat⟩

/-- What is done where no queue is caught, or one is. -/
theorem deleteHistory_eq (hc : c ≠ "") : st.deleteHistory (some a.name) (some c) =
    if ∃ q ∈ st.queues, Under (a.name ++ ":" ++ c) q.1 then (.refused 409 "conversation is active", st)
    else (.cleared (clearTurns a.name c st.file).1 (st.sessions.filter fun s => Under (a.name ++ ":" ++ c) s.1).length,
      { st with
        file := (clearTurns a.name c st.file).2
        sessions := st.sessions.filter fun s => ¬Under (a.name ++ ":" ++ c) s.1 }) := by
  have hagent : (some a.name).bind agentOf = some a := agentOf_name a
  have hid : (some c).filter (· ≠ "") = some c := by simp [hc]
  simp only [deleteHistory, hagent, hid, deleteSessionsForConversation, a.name_ne, hc, or_self, if_false]

theorem Sound.refused_iff (h : st.Sound) (hc : c ≠ "") :
    (st.deleteHistory (some a.name) (some c)).1 = .refused 409 "conversation is active" ↔
      ∃ t ∈ st.pending, t.chat.agent = a ∧ (t.chat.conversationId = some c ∨ Shadows c t.chat) := by
  rw [deleteHistory_eq hc, ← h.caught]
  split_ifs with hcaught
  · exact iff_of_true rfl hcaught
  · exact iff_of_false (fun he => by cases he) hcaught

/-- The sessions that are left, where the conversation is cleared. -/
theorem lookup_cleared {k : String} : lookup Prod.fst k (st.sessions.filter fun s => ¬Under (a.name ++ ":" ++ c) s.1) =
    if Under (a.name ++ ":" ++ c) k then none else lookup Prod.fst k st.sessions := by
  rw [@lookup_filter_key _ _ _ Prod.fst k st.sessions fun k => decide ¬Under (a.name ++ ":" ++ c) k]
  by_cases hunder : Under (a.name ++ ":" ++ c) k
  · rw [if_pos hunder, if_neg (by simpa using hunder)]
  · rw [if_neg hunder, if_pos (by simpa using hunder)]

theorem Sound.isolated_iff_free (h : st.Sound) (hc : c ≠ "") : st.Isolated a c ↔ st.Active a c ∨ st.Unshadowed a c := by
  refine ⟨fun hisolated => ?_, fun hcase => ?_⟩
  · by_cases hactive : st.Active a c
    · exact Or.inl hactive
    · refine Or.inr fun x hagent hshadows => ⟨fun t ht hchat => ?_, fun s hs hk => ?_⟩
      · exact hactive (hisolated.refused.1 ((h.refused_iff hc).2 ⟨t, ht, hchat ▸ hagent, hchat ▸ Or.inr hshadows⟩))
      · -- the session of the other conversation is gone
        have hkept := hisolated.sessions hactive x s.1 hk
        have hopen := mt hisolated.refused.1 hactive
        rw [h.refused_iff hc, ← h.caught] at hopen
        rw [if_neg fun hsame => hshadows.ne hsame.2, deleteHistory_eq hc, if_neg hopen, lookup_cleared,
          if_pos ((under_key hk).2 ⟨hagent, Or.inr hshadows⟩)] at hkept
        exact lookup_eq_none.1 hkept.symm s hs rfl
  · have hrefused : (st.deleteHistory (some a.name) (some c)).1 = .refused 409 "conversation is active" ↔
        st.Active a c := by
      rw [h.refused_iff hc]
      constructor
      · rintro ⟨t, ht, hagent, hsame | hshadows⟩
        · exact ⟨t, ht, hagent, hsame⟩
        · exact hcase.elim id fun hfree => absurd rfl ((hfree t.chat hagent hshadows).1 t ht)
      · rintro ⟨t, ht, hagent, hsame⟩
        exact ⟨t, ht, hagent, Or.inl hsame⟩
    have hopen : ¬st.Active a c → ¬∃ q ∈ st.queues, Under (a.name ++ ":" ++ c) q.1 := by
      rw [h.caught, ← h.refused_iff hc, hrefused]
      exact id
    refine ⟨hrefused, fun hactive => ?_, fun hactive => ?_, fun hactive x k hk => ?_⟩
    · rw [deleteHistory_eq hc, if_pos (h.caught.2 ((h.refused_iff hc).1 (hrefused.2 hactive)))]
    · rw [deleteHistory_eq hc, if_neg (hopen hactive)]
      exact h.file.turnsOf_clear a.name_ne hc
    · rw [deleteHistory_eq hc, if_neg (hopen hactive), lookup_cleared]
      have hfree := hcase.resolve_left hactive
      by_cases hsame : x.agent = a ∧ x.conversationId = some c
      · rw [if_pos ((under_key hk).2 ⟨hsame.1, Or.inl hsame.2⟩), if_pos hsame]
      · rw [if_neg hsame]
        split_ifs with hunder
        · -- a conversation that is shadowed has no session
          obtain ⟨hagent, hcaught⟩ := (under_key hk).1 hunder
          have hshadows := hcaught.resolve_left fun hid => hsame ⟨hagent, hid⟩
          exact (lookup_eq_none.2 fun s hs hsk => (hfree x hagent hshadows).2 s hs
            ((Option.mem_def.1 hk).trans (congrArg some hsk.symm))).symm
        · rfl

/-- **Where the clearing of conversations is isolated.**  Keys are different throughout. -/
theorem isolated_iff (hst : machine.Reachable st) (hc : c ≠ "") :
    (∀ x y : Chat, ∀ k, x.sessionKey = .ok (some k) → y.sessionKey = .ok (some k) →
      x.agent = y.agent ∧ x.conversationId = y.conversationId ∧ x.options = y.options) ∧
    (st.Isolated a c ↔ st.Active a c ∨ st.Unshadowed a c) := by
  refine ⟨fun x y k hx hy => ?_, (sound_of_reachable hst).isolated_iff_free hc⟩
  rw [Chat.sessionKey_eq, Except.ok.injEq] at hx hy
  obtain rfl := key_inj hx hy
  exact ⟨rfl, rfl, rfl⟩

end

/-! ## Two conversations -/

/-- The conversation of a user, who is sent to Codex. -/
def sampleChat : Chat where
  agent := .codex
  conversationId := some "home-assistant:codex:1"
  options := some ⟨"gpt-5.6-luna", "low", by decide +kernel⟩
  conversation_ne := by decide +kernel
  options_codex := by simp

def samplePayload : Payload :=
  ⟨.str "oi", .null, some "home-assistant:codex:1", .str "codex", .null, .null⟩

def sampleTicket : Ticket := ⟨0, sampleChat, sampleChat.key, none, "1", .str "oi", false⟩

/-- The request has ended, and has a session. -/
def sampleBridge : Bridge :=
  ((⟨none, [], [], [], 0⟩ : Bridge).arrive sampleChat sampleChat.key (.str "oi") ⟨"1", by decide⟩ "t").finish
    sampleTicket ⟨"2", by decide⟩ "t" (.success (.str "s") (.str "s") (.str "olá"))

theorem accept_sample : samplePayload.accept = .ok (sampleChat, .str "oi") := by
  have h : samplePayload.accept.toOption = some (sampleChat, .str "oi") := by decide +kernel
  cases haccept : samplePayload.accept with
  | error e => rw [haccept] at h; cases h
  | ok x =>
    rw [haccept] at h
    rw [Option.some.inj h]

theorem reachable_sample : machine.Reachable sampleBridge := by
  have hchat : Step ⟨none, [], [], [], 0⟩ _ := .chat ⟨"1", by decide⟩ "t" accept_sample sampleChat.sessionKey_eq
  refine .step (.step (.start rfl) hchat) (.finish ⟨"2", by decide⟩ "t" _ (List.mem_singleton.2 rfl) fun p hp => ?_)
  cases hp

theorem sampleBridge_run : sampleBridge.pending.length = 0 ∧
    sampleBridge.sessions.map Prod.fst = sampleChat.key.toList ∧
    ("home-assistant" ++ ":").toList <+: "home-assistant:codex:1".toList := by
  decide +kernel

theorem pending_sample : sampleBridge.pending = [] := List.length_eq_zero_iff.1 sampleBridge_run.1

theorem key_sample {k : String} : k ∈ sampleBridge.sessions.map Prod.fst ↔ sampleChat.key = some k := by
  rw [sampleBridge_run.2.1, Option.mem_toList]

/-- Clearing the conversation itself is isolated. -/
theorem isolated_sample : sampleBridge.Isolated .codex "home-assistant:codex:1" := by
  refine (isolated_iff reachable_sample (by decide)).2.2 (Or.inr fun x _ hshadows => ⟨fun t ht => ?_, fun s hs hk => ?_⟩)
  · rw [pending_sample] at ht
    cases ht
  · obtain rfl := key_inj hk (key_sample.1 (List.mem_map_of_mem hs))
    exact hshadows.ne rfl

/-- **Clearing removes the session of another conversation.** -/
theorem clearing_leaks : ¬∀ st a c, machine.Reachable st → c ≠ "" → Isolated st a c := by
  intro h
  have hsound := sound_of_reachable reachable_sample
  rcases (hsound.isolated_iff_free (by decide)).1 (h sampleBridge .codex "home-assistant" reachable_sample (by decide)) with
    ⟨t, ht, -⟩ | hfree
  · rw [pending_sample] at ht
    cases ht
  · obtain ⟨k, hk⟩ := Option.isSome_iff_exists.1 (show sampleChat.key.isSome = true by rfl)
    obtain ⟨s, hs, rfl⟩ := List.mem_map.1 (key_sample.2 hk)
    exact (hfree sampleChat rfl ⟨_, rfl, Or.inl sampleBridge_run.2.2⟩).2 s hs hk

end Bridge

end SmartHome.SharedHistory
