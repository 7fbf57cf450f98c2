/-
  No run of executions and restorations loses a file, whatever the owner of the cache does.
-/
import SmartHome.Lib.Exclusive
import SmartHome.StorageMaintenance.Steps

namespace SmartHome.StorageMaintenance

open Verif Program

/-! ## The surroundings -/

/-- The files that are in use. -/
def Disk.files (s : Disk) : List File := s.opened.toList ++ s.cache.map Entry.file

/-- What a file system is: no two entries have one place, and no two files one key. -/
structure Possible (s : Disk) : Prop where
  places : (s.cache.map Entry.place).Nodup
  keys : ∀ f ∈ s.files, ∀ g ∈ s.files, f.key = g.key → f.content = g.content

/-- The owner creates, replaces and deletes entries of the cache directories at will. -/
def surroundings : Setting Disk where
  others s s' := ∃ cache, s' = { s with cache := cache }
  possible := Possible
  release := closeFile

section
variable (decompress : Bytes → Option Bytes)

/-- What the steps keep. -/
def rules : Rules Disk Request Unit where
  inv s := Possible s ∧ Sound decompress s
  rel := Within decompress
  refl _ := .of_cache rfl rfl fun _ _ _ => Or.inl
  others s s' := ∃ cache, s' = { s with cache := cache }
  possible := Possible
  issued _ := []
  cost _ := none

end

section
variable {decompress : Bytes → Option Bytes} {α β : Type} {ok : Prog α → Disk → Prop}
  {post : α → (rules decompress).Known → List Unit → Prop} {A : (rules decompress).Known}
  {held : List Unit} {P Q : Disk → Prop}

theorem rules_suits : (rules decompress).Suits surroundings where
  others := by
    rintro s _ ⟨-, hsound⟩ ⟨cache, rfl⟩ hpossible
    exact ⟨⟨hpossible, hsound.cache⟩, cache, rfl⟩
  possible _ h := h
  release := by
    rintro s ⟨hpossible, hsound⟩
    refine ⟨⟨⟨hpossible.places, fun f hf g hg => ?_⟩, hsound.held, hsound.verified, hsound.once,
      hsound.recorded, hsound.acts⟩, .of_cache rfl rfl fun _ _ _ => Or.inl⟩
    exact hpossible.keys f (List.mem_append_right _ hf) g (List.mem_append_right _ hg)

/-- A fact that does not look at the cache. -/
def Private (P : Disk → Prop) : Prop := ∀ s cache, P s → P { s with cache := cache }

/-- A private fact can be known. -/
def knownFact (decompress : Bytes → Option Bytes) (P : Disk → Prop) (hP : Private P) :
    (rules decompress).Known where
  holds := P
  stable := by
    rintro s _ ⟨cache, rfl⟩
    exact hP s cache

/-- **The rule of file-system steps.** -/
theorem guar_fs {f : FileStep} {k : Unit → Prog α} (hA : A.Tells P) (hQ : Private Q)
    (hf : ∀ s s', Possible s → Sound decompress s → P s → f s = .ok s' →
      (Sound decompress s' ∧ Within decompress s s') ∧ Q s')
    (hk : ∀ A', A'.Tells Q → Guar (rules decompress) ok post (k ()) A' held) :
    Guar (rules decompress) ok post (fs f >>= k) A held := by
  simp only [fs, bind_assoc]
  refine guar_ask rfl fun fault => guar_require fun _ => guar_earn fun s s' b hinv hA' hpossible hs => ?_
  simp only [bind_ok, pure_ok, Prod.mk.injEq] at hs
  obtain ⟨s₁, hs₁, rfl, -⟩ := hs
  obtain ⟨⟨hsound, hwithin⟩, hq⟩ := hf s s₁ hinv.1 hinv.2 (hA s hA') hs₁
  exact ⟨⟨hpossible, hsound⟩, hwithin, knownFact decompress Q hQ, held, hq, fun _ => Nat.le_refl _,
    hk _ fun _ h => h⟩

/-- A file-system step that ends a program. -/
theorem guar_fs_last {f : FileStep} {ok : Prog Unit → Disk → Prop} (hA : A.Tells P) (hQ : Private Q)
    (hf : ∀ s s', Possible s → Sound decompress s → P s → f s = .ok s' →
      (Sound decompress s' ∧ Within decompress s s') ∧ Q s') :
    Guar (rules decompress) ok (fun _ A _ => A.Tells Q) (fs f) A held := by
  have h : Guar (rules decompress) ok (fun _ A _ => A.Tells Q) (fs f >>= pure) A held :=
    guar_fs hA hQ hf fun _ hA' => hA'
  rwa [bind_pure] at h

/-- The state is read: what is known holds of it. -/
theorem guar_look {k : Disk → Prog α} (hA : A.Tells P)
    (hk : ∀ s, Sound decompress s → P s → Guar (rules decompress) ok post (k s) A held) :
    Guar (rules decompress) ok post (get >>= k) A held := by
  intro s hs hA' _ _
  exact ⟨hs, (rules decompress).refl s, A, held, hA', fun _ => Nat.le_refl _, hk s hs.2 (hA s hA')⟩

/-- The state is read: what is private and holds of it stays so. -/
theorem guar_read {k : Disk → Prog α} {R : Disk → Disk → Prop} (hA : A.Tells P)
    (hR : ∀ s, Private (R s)) (hread : ∀ s, Sound decompress s → P s → R s s)
    (hk : ∀ s A', A'.Tells (R s) → Guar (rules decompress) ok post (k s) A' held) :
    Guar (rules decompress) ok post (get >>= k) A held := by
  intro s hs hA' _ _
  exact ⟨hs, (rules decompress).refl s, knownFact decompress (R s) (hR s), held,
    hread s hs.2 (hA s hA'), fun _ => Nat.le_refl _, hk s _ fun _ h => h⟩

theorem guar_gate {g : Gate} {k : Unit → Prog α}
    (hk : Guar (rules decompress) ok post (k ()) A held) :
    Guar (rules decompress) ok post (gate g >>= k) A held := by
  simp only [gate, bind_assoc]
  exact guar_ask rfl fun _ => guar_lift fun _ _ => hk

/-! ## Steps in the payload -/

/-- The present run began a phase of an operation, and something holds of the payload. -/
def On (op : String) (phase : Phase) (P : Payload → Prop) (s : Disk) : Prop :=
  s.Began op phase ∧ ∃ p, s.payload op = some p ∧ P p

theorem private_on {op : String} {phase : Phase} {P : Payload → Prop} : Private (On op phase P) :=
  fun _ _ h => h

/-- A change of a payload that loses nothing. -/
structure Payload.Keeps (decompress : Bytes → Option Bytes) (p p' : Payload) : Prop where
  staged : ∀ id c, p.Staged id c → p'.Staged id c
  sealed : ∀ id c, p.Sealed decompress id c → p'.Sealed decompress id c
  verified : ∀ id v, p'.seals id = some (.whole v) → p'.Sealed decompress id v.source

section
variable {op id : String} {phase : Phase} {P Q : Payload → Prop} {source : Bytes}

/-- **The rule of steps in the payload.** -/
theorem guar_payload {f : Payload → Except String Payload} {k : Unit → Prog α}
    (hA : A.Tells (On op phase P))
    (hf : ∀ p p', (∀ id v, p.seals id = some (.whole v) → p.Sealed decompress id v.source) → P p →
      f p = .ok p' → p.Keeps decompress p' ∧ Q p')
    (hk : ∀ A', A'.Tells (On op phase Q) → Guar (rules decompress) ok post (k ()) A' held) :
    Guar (rules decompress) ok post (fs (inPayload op f) >>= k) A held := by
  refine guar_fs hA private_on (fun s s' _ hsound hP hs => ?_) hk
  obtain ⟨hbegan, q, hq, hP⟩ := hP
  obtain ⟨p, p', hf', hstep⟩ := inPayload_ok hs
  obtain rfl := Option.some.inj (hstep.before.symm.trans hq)
  obtain ⟨hkeeps, hQ⟩ := hf p p' (fun id v hv => hsound.verified op p id v hstep.before hv) hP hf'
  refine ⟨⟨hstep.sound hsound (fun id c hc => Or.inl (hkeeps.staged id c hc)) hkeeps.sealed hkeeps.verified,
    hstep.within fun id c hc => Or.inl (hkeeps.staged id c hc)⟩, ?_, p', hstep.after, hQ⟩
  rw [Disk.Began, hstep.history]
  exact hbegan

/-- Nothing is staged. -/
def Clear (p : Payload) : Prop := ∀ id, p.originals id = none

/-- One file is staged, and its seal is not complete. -/
structure Open (id : String) (source : Bytes) (p : Payload) : Prop where
  staged : p.Staged id source
  others : ∀ id', id' ≠ id → p.originals id' = none
  unsealed : ∀ v, p.seals id ≠ some (.whole v)

theorem Open.of_originals {p p' : Payload} (h : Open id source p) (hsame : p'.originals = p.originals)
    (hunsealed : ∀ v, p'.seals id ≠ some (.whole v)) : Open id source p' := by
  refine ⟨?_, ?_, hunsealed⟩
  · rw [Payload.Staged, hsame]
    exact h.staged
  · rw [hsame]
    exact h.others

theorem newArchive_keeps {p p' : Payload}
    (hverified : ∀ id v, p.seals id = some (.whole v) → p.Sealed decompress id v.source)
    (h : p.newArchive id = .ok p') : p.Keeps decompress p' ∧ p'.originals = p.originals ∧
      ∀ v, p'.seals id ≠ some (.whole v) := by
  simp only [Payload.newArchive, bind_ok, need_eq_ok, exists_unit, pure_ok] at h
  obtain ⟨hnone, rfl⟩ := h
  rw [Option.isNone_iff_eq_none] at hnone
  -- what is sealed has an archive
  have hsealed : ∀ id' c, p.Sealed decompress id' c → Payload.Sealed decompress
      { p with archives := Function.update p.archives id (some []) } id' c := by
    rintro id' c ⟨b, v, hb, hrest⟩
    have hid : id' ≠ id := by
      rintro rfl
      rw [hnone] at hb
      cases hb
    exact ⟨b, v, (Function.update_of_ne hid _ _).trans hb, hrest⟩
  refine ⟨⟨fun _ _ hc => hc, hsealed, fun id' v hv => hsealed id' _ (hverified id' v hv)⟩, rfl, fun v hv => ?_⟩
  obtain ⟨b, v', hb, -⟩ := hverified id v hv
  rw [hnone] at hb
  cases hb

theorem growArchive_keeps {p p' : Payload} {bytes : Bytes}
    (hverified : ∀ id v, p.seals id = some (.whole v) → p.Sealed decompress id v.source)
    (hunsealed : ∀ v, p.seals id ≠ some (.whole v)) (h : p.growArchive id bytes = .ok p') :
    p.Keeps decompress p' ∧ p'.originals = p.originals ∧ p'.seals = p.seals := by
  simp only [Payload.growArchive, bind_ok, orFail_eq_ok, pure_ok] at h
  obtain ⟨b₀, -, rfl⟩ := h
  have hsealed : ∀ id' c, p.Sealed decompress id' c → Payload.Sealed decompress
      { p with archives := Function.update p.archives id (some (b₀ ++ bytes)) } id' c := by
    rintro id' c ⟨b, v, hb, hd, hv, hrest⟩
    have hid : id' ≠ id := by
      rintro rfl
      exact hunsealed v hv
    exact ⟨b, v, (Function.update_of_ne hid _ _).trans hb, hd, hv, hrest⟩
  exact ⟨⟨fun _ _ hc => hc, hsealed, fun id' v hv => hsealed id' _ (hverified id' v hv)⟩, rfl, rfl⟩

theorem newSeal_keeps {p p' : Payload}
    (hverified : ∀ id v, p.seals id = some (.whole v) → p.Sealed decompress id v.source)
    (h : p.newSeal id = .ok p') : p.Keeps decompress p' ∧ p'.originals = p.originals ∧
      p'.archives = p.archives ∧ ∀ v, p'.seals id ≠ some (.whole v) := by
  simp only [Payload.newSeal, bind_ok, need_eq_ok, exists_unit, pure_ok] at h
  obtain ⟨hnone, rfl⟩ := h
  rw [Option.isNone_iff_eq_none] at hnone
  have hsealed : ∀ id' c, p.Sealed decompress id' c → Payload.Sealed decompress
      { p with seals := Function.update p.seals id (some .torn) } id' c := by
    rintro id' c ⟨b, v, hb, hd, hv, hrest⟩
    have hid : id' ≠ id := by
      rintro rfl
      rw [hnone] at hv
      cases hv
    exact ⟨b, v, hb, hd, (Function.update_of_ne hid _ _).trans hv, hrest⟩
  have htorn : ∀ v, Function.update p.seals id (some .torn) id ≠ some (.whole v) := by
    intro v hv
    rw [Function.update_self] at hv
    cases hv
  refine ⟨⟨fun _ _ hc => hc, hsealed, fun id' v hv => ?_⟩, rfl, rfl, htorn⟩
  have hid : id' ≠ id := by
    rintro rfl
    exact htorn v hv
  exact hsealed id' _ (hverified id' v ((Function.update_of_ne hid _ _).symm.trans hv))

theorem writeSeal_keeps {p p' : Payload} {b : Bytes} {v : Seal}
    (hverified : ∀ id v, p.seals id = some (.whole v) → p.Sealed decompress id v.source)
    (hunsealed : ∀ v, p.seals id ≠ some (.whole v)) (hb : p.archives id = some b)
    (hd : decompress b = some v.source) (hbytes : v.bytes = v.source.length)
    (hv : v.recoveryVerified = true) (h : p.writeSeal id v = .ok p') :
    p.Keeps decompress p' ∧ p'.originals = p.originals ∧ p'.Sealed decompress id v.source := by
  obtain rfl := pure_ok.1 h
  have hnew : Payload.Sealed decompress { p with seals := Function.update p.seals id (some (.whole v)) }
      id v.source := ⟨b, v, hb, hd, Function.update_self _ _ _, rfl, hbytes, hv⟩
  have hsealed : ∀ id' c, p.Sealed decompress id' c → Payload.Sealed decompress
      { p with seals := Function.update p.seals id (some (.whole v)) } id' c := by
    rintro id' c ⟨b, v', hb, hd, hv', hrest⟩
    have hid : id' ≠ id := by
      rintro rfl
      exact hunsealed v' hv'
    exact ⟨b, v', hb, hd, (Function.update_of_ne hid _ _).trans hv', hrest⟩
  refine ⟨⟨fun _ _ hc => hc, hsealed, fun id' v' hv' => ?_⟩, rfl, hnew⟩
  by_cases hid : id' = id
  · subst hid
    obtain rfl : v = v' := by simpa using hv'
    exact hnew
  · exact hsealed id' _ (hverified id' v' ((Function.update_of_ne hid _ _).symm.trans hv'))

/-! ## Execution -/

variable {row : Item} {scope : String}

/-- A program after which something is known. -/
theorem guar_known {R : Disk → Prop} {p : Prog β} {k : β → Prog α}
    (h : Guar (rules decompress) (fun _ _ => True) (fun _ A _ => A.Tells R) p A held)
    (hk : ∀ b A held, A.Tells R → Guar (rules decompress) ok post (k b) A held) :
    Guar (rules decompress) ok post (p >>= k) A held :=
  guar_bind (h.mono fun b A held hA => hk b A held hA)

theorem compress_guar {ok : Prog ℕ → Disk → Prop} {limit : ℕ} {chunks : List Bytes} {count : ℕ}
    (hA : A.Tells (On op phase (Open id source))) :
    Guar (rules decompress) ok (fun _ A _ => A.Tells (On op phase (Open id source)))
      (compress op id limit chunks count) A held := by
  induction chunks generalizing count A with
  | nil => exact hA
  | cons chunk chunks ih =>
    refine guar_require fun _ => guar_ask rfl fun bytes => guar_payload hA (fun p p' hverified hP hf => ?_)
      fun A' hA' => ih hA'
    obtain ⟨hkeeps, horiginals, hseals⟩ := growArchive_keeps hverified hP.unsealed hf
    exact ⟨hkeeps, hP.of_originals horiginals (hseals ▸ hP.unsealed)⟩

theorem retain_guar {ok : Prog Unit → Disk → Prop}
    (hA : A.Tells (On op .execute fun p => p.Staged row.id source ∧ ∀ id, id ≠ row.id → p.originals id = none)) :
    Guar (rules decompress) ok (fun _ A _ => A.Tells (On op .execute Clear))
      (retain decompress op row source) A held := by
  refine guar_payload (Q := Open row.id source) hA (fun p p' hverified hP hf => ?_) fun A hA => ?_
  · obtain ⟨hkeeps, horiginals, hunsealed⟩ := newArchive_keeps hverified hf
    refine ⟨hkeeps, ?_, ?_, hunsealed⟩
    · rw [Payload.Staged, horiginals]
      exact hP.1
    · rw [horiginals]
      exact hP.2
  refine guar_known (compress_guar hA) fun count A held hA => guar_ask rfl fun trailer => ?_
  refine guar_payload (Q := Open row.id source) hA (fun p p' hverified hP hf => ?_) fun A hA => ?_
  · obtain ⟨hkeeps, horiginals, hseals⟩ := growArchive_keeps hverified hP.unsealed hf
    exact ⟨hkeeps, hP.of_originals horiginals (hseals ▸ hP.unsealed)⟩
  refine guar_require fun _ => ?_
  -- the archive stays as it is read back
  refine guar_read (R := fun s => On op .execute fun p => Open row.id source p ∧
    p.archives row.id = s.archive op row.id) hA (fun s => private_on) (fun s _ hs => ?_) fun s A hA => ?_
  · obtain ⟨hbegan, p, hp, hP⟩ := hs
    refine ⟨hbegan, p, hp, hP, ?_⟩
    rw [Disk.archive, hp, Option.bind_some]
  refine guar_lift fun packed hpacked => guar_lift fun recovered hrecovered => ?_
  refine guar_require fun _ => guar_require fun hsame => ?_
  rw [orFail_eq_ok] at hpacked hrecovered
  obtain ⟨hlength, rfl⟩ := hsame
  refine guar_payload (Q := fun p => Open row.id recovered p ∧ p.archives row.id = some packed) hA
    (fun p p' hverified hP hf => ?_) fun A hA => ?_
  · obtain ⟨hkeeps, horiginals, harchives, hunsealed⟩ := newSeal_keeps hverified hf
    exact ⟨hkeeps, hP.1.of_originals horiginals hunsealed, by rw [harchives, hP.2, hpacked]⟩
  refine guar_payload (Q := fun p => p.Sealed decompress row.id recovered ∧ p.Staged row.id recovered ∧
    ∀ id, id ≠ row.id → p.originals id = none) hA (fun p p' hverified hP hf => ?_) fun A hA => ?_
  · obtain ⟨hkeeps, horiginals, hnew⟩ :=
      writeSeal_keeps hverified hP.1.unsealed hP.2 hrecovered hlength.symm rfl hf
    refine ⟨hkeeps, hnew, ?_, ?_⟩
    · rw [Payload.Staged, horiginals]
      exact hP.1.staged
    · rw [horiginals]
      exact hP.1.others
  refine guar_fs_last hA private_on fun s s' _ hsound hs hf => ?_
  obtain ⟨hbegan, p, hp, hsealed, hstaged, hothers⟩ := hs
  obtain ⟨s₁, hunlink, rfl, hacting⟩ := acting_sound hbegan hf
  -- what is staged is what is sealed
  have hkept : ∀ c, p.Staged row.id c → p.Sealed decompress row.id c ∨ s.LinkedBack op row.id c := by
    rintro c ⟨f, hf, rfl⟩
    obtain ⟨g, hg, hc⟩ := hstaged
    obtain rfl := Option.some.inj (hf.symm.trans hg)
    rw [hc]
    exact Or.inl hsealed
  obtain ⟨hboth, hpayload, hhistory⟩ := unlinkOriginal_sound hsound hunlink hp hkept
  refine ⟨hacting (by rw [hhistory]) (by rw [hhistory]) hboth, ?_, p.stage row.id none, hpayload, fun id => ?_⟩
  · show (op, Phase.execute, s₁.history.session) ∈ s₁.history.begun
    rw [hhistory]
    exact hbegan
  · by_cases hid : id = row.id
    · rw [hid, Payload.stage_self]
    · rw [Payload.stage_ne _ hid]
      exact hothers id hid

theorem guar_gate_last {ok : Prog Unit → Disk → Prop} {g : Gate}
    {post : Unit → (rules decompress).Known → List Unit → Prop} (h : post () A held) :
    Guar (rules decompress) ok post (gate g) A held := by
  refine guar_ask rfl fun reply => ?_
  cases reply with
  | ok u => exact h
  | error e => trivial

/-- A step that cannot fail. -/
theorem guar_update {S T : Disk → Prop} {f : Disk → Disk} {k : Unit → Prog α} (hA : A.Tells S)
    (hT : Private T) (hf : ∀ s, Sound decompress s → S s →
      (Sound decompress (f s) ∧ Within decompress s (f s)) ∧ T (f s))
    (hk : ∀ A', A'.Tells T → Guar (rules decompress) ok post (k ()) A' held) :
    Guar (rules decompress) ok post (update f >>= k) A held := by
  refine guar_earn fun s s' b hinv hA' hpossible hs => ?_
  obtain ⟨rfl, -⟩ := Prod.mk.inj (pure_ok.1 hs)
  obtain ⟨⟨hsound, hwithin⟩, hq⟩ := hf s hinv.2 (hA s hA')
  exact ⟨⟨hpossible, hsound⟩, hwithin, knownFact decompress T hT, held, hq, fun _ => Nat.le_refl _,
    hk _ fun _ h => h⟩

theorem leased_guar {ok : Prog Unit → Disk → Prop} (hA : A.Tells (On op .execute Clear)) :
    Guar (rules decompress) ok (fun _ A _ => A.Tells (On op .execute Clear))
      (leased decompress op scope row) A held := by
  refine guar_gate ?_
  refine guar_read (R := fun s s' => On op .execute Clear s' ∧ s'.opened = s.opened) hA
    (fun _ _ _ h => h) (fun s _ hs => ⟨hs, rfl⟩) fun s A hA => ?_
  refine guar_lift fun source hsource => guar_require fun hidentity => guar_gate ?_
  rw [orFail_eq_ok] at hsource
  refine guar_ask rfl fun now => ?_
  -- what is moved has the content of the open file, if it has its key
  refine guar_fs (Q := On op .execute fun p => (∀ id, id ≠ row.id → p.originals id = none) ∧
    ∀ f, p.originals row.id = some f → f.key = source.key → f.content = source.content) hA private_on
    (fun s₁ s₂ hpossible hsound hs hf => ?_) fun A hA => ?_
  · obtain ⟨⟨hbegan, p, hp, hclear⟩, hopened⟩ := hs
    obtain ⟨s₃, hrename, rfl, hacting⟩ := acting_sound hbegan hf
    obtain ⟨hboth, f, hentry, hpayload, hbegun, hsession⟩ := renameIn_sound hsound hrename hp (hclear _)
    refine ⟨hacting hbegun hsession hboth, ?_, _, hpayload, fun id hid => ?_, fun g hg hkey => ?_⟩
    · show (op, Phase.execute, s₃.history.session) ∈ s₃.history.begun
      rw [hbegun, hsession]
      exact hbegan
    · rw [Payload.stage_ne _ hid]
      exact hclear id
    · rw [Payload.stage_self, Option.some.injEq] at hg
      subst hg
      obtain ⟨e, he, -, rfl⟩ := Disk.entry_some hentry
      refine hpossible.keys e.file (List.mem_append_right _ (List.mem_map_of_mem he)) source
        (List.mem_append_left _ ?_) hkey
      rw [hopened, hsource]
      exact List.mem_singleton_self source
  refine guar_read (R := fun s => On op .execute fun p => ((∀ id, id ≠ row.id → p.originals id = none) ∧
    ∀ f, p.originals row.id = some f → f.key = source.key → f.content = source.content) ∧
    p.originals row.id = s.original op row.id) hA (fun s => private_on) (fun s _ hs => ?_) fun s A hA => ?_
  · obtain ⟨hbegan, p, hp, hP⟩ := hs
    refine ⟨hbegan, p, hp, hP, ?_⟩
    rw [Disk.original, hp, Option.bind_some]
  refine guar_lift fun moved hmoved => guar_ask rfl fun links => guar_require fun hchecked => ?_
  rw [orFail_eq_ok] at hmoved
  have hkey : moved.key = source.key := by
    refine File.key_eq ?_
    rw [hchecked.2.2, hidentity]
  refine guar_known (retain_guar fun s' hs => ?_) fun _ A held hA => guar_gate_last hA
  obtain ⟨hbegan, p, hp, ⟨hothers, hcontent⟩, hsame⟩ := hA s' hs
  rw [hmoved] at hsame
  exact ⟨hbegan, p, hp, ⟨moved, hsame, hcontent moved hsame hkey⟩, hothers⟩

theorem openFile_sound {name : String} {s s' : Disk} (h : Sound decompress s)
    (hs : openFile scope name s = .ok s') : (Sound decompress s' ∧ Within decompress s s') ∧
      (∀ op, s'.payload op = s.payload op) ∧ s'.history = s.history := by
  simp only [openFile, bind_ok, orFail_eq_ok, need_eq_ok, exists_unit, pure_ok] at hs
  obtain ⟨f, -, -, rfl⟩ := hs
  exact ⟨h.quiet (fun _ => rfl) (fun _ _ => id) rfl rfl rfl rfl rfl, fun _ => rfl, rfl⟩

theorem closeFile_sound {s : Disk} (h : Sound decompress s) :
    Sound decompress (closeFile s) ∧ Within decompress s (closeFile s) :=
  h.quiet (fun _ => rfl) (fun _ _ => id) rfl rfl rfl rfl rfl

theorem On.of_same {P : Payload → Prop} {s s' : Disk} (h : On op phase P s)
    (hpayload : ∀ op, s'.payload op = s.payload op) (hhistory : s'.history = s.history) :
    On op phase P s' := by
  obtain ⟨hbegan, p, hp, hP⟩ := h
  refine ⟨?_, p, (hpayload op).trans hp, hP⟩
  rw [Disk.Began, hhistory]
  exact hbegan

theorem quarantineOne_guar {ok : Prog Unit → Disk → Prop} (hA : A.Tells (On op .execute Clear)) :
    Guar (rules decompress) ok (fun _ A _ => A.Tells (On op .execute Clear))
      (quarantineOne decompress op scope row) A held := by
  refine guar_fs (Q := On op .execute Clear) hA private_on (fun s s' _ hsound hs hf => ?_) fun A hA => ?_
  · obtain ⟨hboth, hpayload, hhistory⟩ := openFile_sound hsound hf
    exact ⟨hboth, hs.of_same hpayload hhistory⟩
  refine guar_attempt ((leased_guar hA).mono fun _ A held hA => ?_) fun e A held => ?_
  · exact guar_update hA private_on (fun s hsound hs => ⟨closeFile_sound hsound, hs⟩) fun _ hA => hA
  · have htrue : A.Tells fun _ => True := fun _ _ => trivial
    exact guar_update (T := fun _ => True) htrue (fun _ _ h => h) (fun s hsound _ => ⟨closeFile_sound hsound, trivial⟩)
      fun _ _ => trivial

theorem quarantineRow_guar {ok : Prog Unit → Disk → Prop} {pattern : String → Bool} {opened : List Key}
    (hA : A.Tells (On op .execute Clear)) :
    Guar (rules decompress) ok (fun _ A _ => A.Tells (On op .execute Clear))
      (quarantineRow decompress op scope pattern opened row) A held :=
  guar_require fun _ => guar_get fun _ => guar_lift fun _ _ => guar_ask rfl fun _ =>
    guar_require fun _ => quarantineOne_guar hA

theorem quarantineAll_guar {ok : Prog (List String × Option String) → Disk → Prop}
    {pattern : String → Bool} {opened : List Key} {rows : List Item} {finished : List String}
    (hA : A.Tells (On op .execute Clear)) :
    Guar (rules decompress) ok (fun _ _ _ => True)
      (quarantineAll decompress op scope pattern opened rows finished) A held := by
  induction rows generalizing finished A held with
  | nil => trivial
  | cons row rows ih =>
    exact guar_attempt ((quarantineRow_guar hA).mono fun _ _ _ hA => ih hA) fun _ _ _ => trivial

/-- What always holds is known. -/
theorem tells_true : A.Tells fun _ => True := fun _ _ => trivial

theorem guar_save {r : Record} {report : Report} {k : Unit → Prog α}
    (hk : ∀ A, Guar (rules decompress) ok post (k ()) A held) :
    Guar (rules decompress) ok post (save op r report >>= k) A held := by
  simp only [save, bind_assoc]
  refine guar_fs (Q := fun _ => True) tells_true (fun _ _ h => h)
    (fun s s' _ hsound _ hs => ⟨createRecord_sound hsound hs, trivial⟩) fun A hA => ?_
  exact guar_fs (Q := fun _ => True) hA (fun _ _ h => h)
    (fun s s' _ hsound _ hs => ⟨(fillRecord_sound hsound hs).1, trivial⟩) fun A _ => hk A

/-- The receipt that a phase begins with; what is known of the payloads stays so. -/
theorem guar_saveIntent {report : Report} {R : Disk → Prop} {k : Unit → Prog α} (hA : A.Tells R)
    (hprivate : Private R) (hR : ∀ s s', R s → (∀ op, s'.payload op = s.payload op) → R s')
    (hk : ∀ A', A'.Tells (fun s => s.Began op phase ∧ R s) →
      Guar (rules decompress) ok post (k ()) A' held) :
    Guar (rules decompress) ok post (saveIntent op phase report >>= k) A held := by
  have hboth : Private fun s => s.Began op phase ∧ R s := fun s cache h => ⟨h.1, hprivate s cache h.2⟩
  simp only [saveIntent, bind_assoc]
  refine guar_fs hA hboth (fun s s' _ hsound hs hf => ?_) fun A hA => ?_
  · obtain ⟨hsound', hbegan, hpayload⟩ := createIntent_sound hsound hf
    exact ⟨hsound', hbegan, hR s s' hs hpayload⟩
  refine guar_fs hA hboth (fun s s' _ hsound hs hf => ?_) fun A hA => hk A hA
  obtain ⟨hsound', hpayload, hhistory⟩ := fillRecord_sound hsound hf
  refine ⟨hsound', ?_, hR s s' hs.2 hpayload⟩
  rw [Disk.Began, hhistory]
  exact hs.1

section
variable {ok : Prog Answer → Disk → Prop} {pattern : String → Bool} {opened : List Key} {plan : Plan}

theorem status_guar : Guar (rules decompress) ok (fun _ _ _ => True) (status op) A held := by
  refine guar_get fun s => ?_
  cases (s.record op .restoreResult).or ((s.record op .restoreIntent).or
      ((s.record op .result).or (s.record op .intent))) with
  | none => trivial
  | some doc => exact guar_lift fun _ _ => trivial

theorem conclude_guar {report : Report} :
    Guar (rules decompress) ok (fun _ _ _ => True) (conclude op report) A held :=
  guar_save fun _ => trivial

theorem executeRows_guar (hA : A.Tells (On op .execute Clear)) :
    Guar (rules decompress) ok (fun _ _ _ => True)
      (executeRows decompress op scope pattern opened plan) A held := by
  refine guar_then (quarantineAll_guar hA) fun outcome A held => ?_
  cases outcome.2 with
  | some e => exact conclude_guar
  | none => exact guar_attempt (guar_gate_last conclude_guar) fun _ _ _ => conclude_guar

theorem executeNew_guar :
    Guar (rules decompress) ok (fun _ _ _ => True) (executeNew decompress op scope pattern plan) A held := by
  refine guar_ask rfl fun now => guar_require fun _ => guar_require fun _ => ?_
  split_ifs
  · trivial
  refine guar_gate (guar_gate (guar_gate (guar_ask rfl fun _ => guar_lift fun _ _ => guar_gate ?_)))
  refine guar_fs (Q := fun s => ∃ p, s.payload op = some p ∧ Clear p) tells_true (fun _ _ h => h)
    (fun s s' _ hsound _ hs => ?_) fun A hA => ?_
  · obtain ⟨hboth, hpayload⟩ := makePayload_sound hsound hs
    exact ⟨hboth, _, hpayload, fun _ => rfl⟩
  refine guar_saveIntent hA (fun _ _ h => h) ?_ fun A hA => executeRows_guar hA
  rintro s s' ⟨p, hp, hclear⟩ hpayload
  exact ⟨p, (hpayload op).trans hp, hclear⟩

theorem enter_sound {s : Disk} (h : Sound decompress s) :
    Sound decompress (enter s) ∧ Within decompress s (enter s) :=
  h.quiet (fun _ => rfl) (fun _ _ => id) rfl rfl rfl rfl rfl

/-- The lock is taken. -/
theorem guar_enter {k : Unit → Prog α} {ok : Prog α → Disk → Prop}
    (hk : ∀ A, Guar (rules decompress) ok post (k ()) A held) :
    Guar (rules decompress) ok post (update enter >>= k) A held :=
  guar_update (T := fun _ => True) tells_true (fun _ _ h => h)
    (fun _ hsound _ => ⟨enter_sound hsound, trivial⟩) fun A _ => hk A

theorem execute_guar {patterns : String → Option (String → Bool)} :
    Guar (rules decompress) ok (fun _ _ _ => True) (execute decompress patterns scope op) A held := by
  refine guar_lift fun pattern _ => guar_require fun _ => guar_enter fun A => guar_gate ?_
  refine guar_get fun s => ?_
  split_ifs
  · exact guar_then status_guar fun _ _ _ => trivial
  · exact guar_lift fun d _ => executeNew_guar

end

/-! ## Restoration -/

/-- A step of a phase that leaves the payloads and the phases alone. -/
theorem guar_cache {f : FileStep} {k : Unit → Prog α} (hA : A.Tells fun s => s.Began op phase)
    (hf : ∀ s s', Sound decompress s → s.Began op phase → f s = .ok s' →
      (Sound decompress s' ∧ Within decompress s s') ∧ s'.Began op phase)
    (hk : ∀ A', A'.Tells (fun s => s.Began op phase) → Guar (rules decompress) ok post (k ()) A' held) :
    Guar (rules decompress) ok post (fs f >>= k) A held :=
  guar_fs hA (fun _ _ h => h) (fun s s' _ hsound hs hf' => hf s s' hsound hs hf') hk

theorem restoreOriginal_guar {ok : Prog Unit → Disk → Prop} {staged : File}
    (hA : A.Tells fun s => s.Began op .restore) :
    Guar (rules decompress) ok (fun _ A _ => A.Tells fun s => s.Began op .restore)
      (restoreOriginal op scope row staged) A held := by
  refine guar_ask rfl fun links => guar_require fun _ => ?_
  refine guar_fs (Q := fun s => s.Began op .restore ∧
    ∀ f, s.original op row.id = some f → s.LinkedBack op row.id f.content) hA (fun _ _ h => h)
    (fun s s' _ hsound hbegan hf => ?_) fun A hA => ?_
  · obtain ⟨s₁, hlink, rfl, hacting⟩ := acting_sound hbegan hf
    obtain ⟨hboth, hlinked, hpayload, hbegun, hsession⟩ := linkOriginal_sound hsound hlink
    refine ⟨hacting hbegun hsession hboth, ?_, fun f hf => ?_⟩
    · show (op, Phase.restore, s₁.history.session) ∈ s₁.history.begun
      rw [hbegun, hsession]
      exact hbegan
    · refine hlinked f ?_
      rw [Disk.original, ← hpayload]
      exact hf
  refine guar_fs_last hA (fun _ _ h => h) fun s s' _ hsound hs hf => ?_
  obtain ⟨hbegan, hlinked⟩ := hs
  obtain ⟨s₁, hunlink, rfl, hacting⟩ := acting_sound hbegan hf
  obtain ⟨p, p', -, hstep⟩ := inPayload_ok hunlink
  have hkept : ∀ c, p.Staged row.id c → p.Sealed decompress row.id c ∨ s.LinkedBack op row.id c := by
    rintro c ⟨f, hf, rfl⟩
    refine Or.inr (hlinked f ?_)
    rw [Disk.original, hstep.before, Option.bind_some, hf]
  obtain ⟨hboth, -, hhistory⟩ := unlinkOriginal_sound hsound hunlink hstep.before hkept
  refine ⟨hacting (by rw [hhistory]) (by rw [hhistory]) hboth, ?_⟩
  show (op, Phase.restore, s₁.history.session) ∈ s₁.history.begun
  rw [hhistory]
  exact hbegan

theorem expand_guar {ok : Prog ℕ → Disk → Prop} {key : Key} {limit : ℕ} {chunks : List Bytes} {count : ℕ}
    (hA : A.Tells fun s => s.Began op phase) :
    Guar (rules decompress) ok (fun _ A _ => A.Tells fun s => s.Began op phase)
      (expand key limit chunks count) A held := by
  induction chunks generalizing count A with
  | nil => exact hA
  | cons chunk chunks ih =>
    refine guar_require fun _ => guar_cache hA (fun s s' hsound hbegan hf => ?_) fun A' hA' => ih hA'
    refine ⟨changeFile_sound hsound hf fun _ => rfl, ?_⟩
    obtain rfl := pure_ok.1 hf
    exact hbegan

theorem linkTo_began {place : String × String} {f : File} {s s' : Disk} (hs : linkTo place f s = .ok s') :
    s'.history = s.history := by
  obtain ⟨-, -, -, rfl⟩ := linkTo_ok hs
  rfl

/-- A step on the cache that is remembered. -/
theorem guar_acting {f : FileStep} {k : Unit → Prog α} (hA : A.Tells fun s => s.Began op phase)
    (hf : ∀ s s', Sound decompress s → f s = .ok s' →
      (Sound decompress s' ∧ Within decompress s s') ∧ s'.history = s.history)
    (hk : ∀ A', A'.Tells (fun s => s.Began op phase) → Guar (rules decompress) ok post (k ()) A' held) :
    Guar (rules decompress) ok post (fs (acting op phase f) >>= k) A held := by
  refine guar_cache hA (fun s s' hsound hbegan hf' => ?_) hk
  obtain ⟨s₁, hstep, rfl, hacting⟩ := acting_sound hbegan hf'
  obtain ⟨hboth, hhistory⟩ := hf s s₁ hsound hstep
  refine ⟨hacting (by rw [hhistory]) (by rw [hhistory]) hboth, ?_⟩
  show (op, phase, s₁.history.session) ∈ s₁.history.begun
  rw [hhistory]
  exact hbegan

theorem restoreArchive_guar {ok : Prog Unit → Disk → Prop} (hA : A.Tells fun s => s.Began op .restore) :
    Guar (rules decompress) ok (fun _ A _ => A.Tells fun s => s.Began op .restore)
      (restoreArchive decompress op scope row) A held := by
  refine guar_get fun s => guar_lift fun doc _ => guar_lift fun v _ => guar_require fun _ =>
    guar_ask rfl fun key => guar_ask rfl fun now => ?_
  refine guar_acting hA (fun s s' hsound hf => ⟨linkTo_sound hsound hf, linkTo_began hf⟩) fun A hA => ?_
  refine guar_lift fun packed _ => guar_lift fun data _ => guar_known (expand_guar hA) fun count A held hA => ?_
  refine guar_require fun _ => guar_gate ?_
  refine guar_cache hA (fun s s' hsound hbegan hf => ⟨changeFile_sound hsound hf fun _ => rfl, ?_⟩)
    fun A hA => ?_
  · obtain rfl := pure_ok.1 hf
    exact hbegan
  refine guar_acting hA (fun s s' hsound hf => ⟨linkTemp_sound hsound hf, ?_⟩) fun A hA => ?_
  · simp only [linkTemp, bind_ok, orFail_eq_ok] at hf
    obtain ⟨f, -, hf⟩ := hf
    exact linkTo_began hf
  have hlast : Guar (rules decompress) ok (fun _ A _ => A.Tells fun s => s.Began op .restore)
      (fs (acting op .restore (unlinkTemp scope row)) >>= pure) A held := by
    refine guar_acting hA (fun s s' hsound hf => ⟨unlinkTemp_sound hsound hf, ?_⟩) fun A hA => hA
    simp only [unlinkTemp, bind_ok, need_eq_ok, exists_unit, pure_ok] at hf
    obtain ⟨-, rfl⟩ := hf
    rfl
  rwa [bind_pure] at hlast

theorem restoreRow_guar {ok : Prog Unit → Disk → Prop} (hA : A.Tells fun s => s.Began op .restore) :
    Guar (rules decompress) ok (fun _ A _ => A.Tells fun s => s.Began op .restore)
      (restoreRow decompress op scope row) A held := by
  refine guar_get fun s => ?_
  cases (s.original op row.id).filter fun f => f.exists with
  | some staged => exact restoreOriginal_guar hA
  | none => exact restoreArchive_guar hA

theorem restoreAll_guar {ok : Prog (List String × Option String) → Disk → Prop} {rows : List Item}
    {finished : List String} (hA : A.Tells fun s => s.Began op .restore) :
    Guar (rules decompress) ok (fun _ _ _ => True) (restoreAll decompress op scope rows finished) A held := by
  induction rows generalizing finished A held with
  | nil => trivial
  | cons row rows ih =>
    exact guar_attempt ((restoreRow_guar hA).mono fun _ _ _ hA => ih hA) fun _ _ _ => trivial

theorem checkTargets_guar {ok : Prog Unit → Disk → Prop} {pattern : String → Bool} {rows : List Item} :
    Guar (rules decompress) ok (fun _ _ _ => True) (checkTargets scope pattern rows) A held := by
  induction rows generalizing A with
  | nil => trivial
  | cons row rows ih =>
    exact guar_require fun _ => guar_get fun _ => guar_require fun _ => ih

theorem restoreRows_guar {ok : Prog (List String × Option String) → Disk → Prop} {pattern : String → Bool}
    {rows : List Item} : Guar (rules decompress) ok (fun _ _ _ => True)
      (restoreRows decompress op scope pattern rows) A held := by
  refine guar_attempt (guar_then checkTargets_guar fun _ A held => ?_) fun _ _ _ => trivial
  have hsave : Guar (rules decompress) (fun _ _ => True) (fun _ A _ => A.Tells fun s => s.Began op .restore)
      (saveIntent op .restore .restoreIntent >>= pure) A held :=
    guar_saveIntent (R := fun _ => True) tells_true (fun _ _ h => h) (fun _ _ _ _ => trivial)
      fun A hA s hs => (hA s hs).1
  rw [bind_pure] at hsave
  exact hsave.mono fun _ _ _ hA => restoreAll_guar hA

theorem restore_guar {ok : Prog Answer → Disk → Prop} {patterns : String → Option (String → Bool)} :
    Guar (rules decompress) ok (fun _ _ _ => True) (restore decompress patterns scope op) A held := by
  refine guar_lift fun pattern _ => guar_require fun _ => guar_enter fun A => guar_gate ?_
  refine guar_get fun s => ?_
  split_ifs
  · exact guar_then status_guar fun _ _ _ => trivial
  refine guar_lift fun d _ => guar_require fun _ => guar_gate (guar_gate ?_)
  refine guar_then restoreRows_guar fun outcome A held => guar_get fun s => ?_
  split_ifs
  · exact guar_save fun _ => trivial
  · trivial

end

end

/-! ## Runs -/

section
variable (decompress : Bytes → Option Bytes) (patterns : String → Option (String → Bool))

/-- What the maintenance starts. -/
def Started (p : Prog Answer) : Prop :=
  ∃ scope op, p = execute decompress patterns scope op ∨ p = restore decompress patterns scope op

/-- Executions and restorations, one at a time, on plans of which nothing was done yet. -/
def maintenanceMachine : Machine (Desk Disk Reply Answer) :=
  deskMachine surroundings
    (fun s => Possible s ∧ s.history = ⟨0, [], [], [], []⟩ ∧
      ∀ op d, s.dirs op = some d → d.payload = none ∧ ∀ r, d.records r = none)
    (Started decompress patterns)

variable {decompress patterns} {w : Desk Disk Reply Answer}

theorem Started.guar {p : Prog Answer} (h : Started decompress patterns p) :
    Guar (rules decompress) (fun _ _ => True) (fun _ _ _ => True) p (.trivial _) [] := by
  obtain ⟨scope, op, rfl | rfl⟩ := h
  · exact execute_guar
  · exact restore_guar

theorem maintenance_good (h : (maintenanceMachine decompress patterns).Reachable w) :
    w.Good (rules decompress) := by
  refine Desk.Good.reachable rules_suits ?_ (fun p hp => Started.guar hp) h
  rintro s ⟨hpossible, hhistory, hnew⟩
  refine ⟨hpossible, ⟨?_, ?_, ?_, ?_, ?_⟩⟩
  · intro op row c hc
    rw [hhistory] at hc
    cases hc
  · intro op p id v hp
    obtain ⟨d, hd, hp⟩ := Option.bind_eq_some_iff.1 hp
    rw [(hnew op d hd).1] at hp
    cases hp
  · rw [hhistory]
    exact List.nodup_nil
  · intro t ht
    rw [hhistory] at ht
    cases ht
  · intro t ht
    rw [hhistory] at ht
    cases ht

/-- **The quarantine loses no file.**  What was taken out of the cache is staged, or kept in an
    archive under a seal that verified it, or was linked back; a step of the maintenance unlinks a
    staged file only if it is kept otherwise, replaces no entry of the cache, and removes one only
    for the quarantine; and each phase of an operation acts in one run only. -/
theorem quarantine_keeps (h : (maintenanceMachine decompress patterns).Reachable w) :
    (∀ op row c, (op, row, c) ∈ w.state.history.taken → w.state.Staged op row.id c ∨
      w.state.Sealed decompress op row.id c ∨ w.state.LinkedBack op row.id c) ∧
    (∀ w', Desk.Own surroundings (Started decompress patterns) w w' →
      Within decompress w.state w'.state) ∧
    ∀ op phase n m, (op, phase, n) ∈ w.state.history.acts → (op, phase, m) ∈ w.state.history.acts → n = m := by
  have hgood := maintenance_good h
  refine ⟨hgood.inv.2.held, fun w' hstep => ?_, fun op phase n m hn hm => ?_⟩
  · exact (hgood.own rules_suits (fun p hp => hp.guar) hstep).2
  · have heq := List.inj_on_of_nodup_map hgood.inv.2.once (hgood.inv.2.acts _ hn) (hgood.inv.2.acts _ hm) rfl
    exact (Prod.mk.inj (Prod.mk.inj heq).2).2

end

/-! ## A file that its owner deletes when it is back -/

section

instance (s : Disk) : Decidable (Possible s) :=
  decidable_of_iff ((s.cache.map Entry.place).Nodup ∧
    ∀ f ∈ s.files, ∀ g ∈ s.files, f.key = g.key → f.content = g.content)
    ⟨fun h => ⟨h.1, h.2⟩, fun h => ⟨h.places, h.keys⟩⟩

instance (s : Disk) : Decidable (surroundings.possible s) := inferInstanceAs (Decidable (Possible s))

def sampleFile : File := ⟨⟨1, 7⟩, .regular, [104, 105], 0, 0, 1001, 1001, 0o600⟩

def sampleItem : Item := ⟨"item", "abcdef01", sampleFile.identity⟩

def sampleOp : String := String.ofList (List.replicate 32 'a')

def sampleDisk : Disk where
  cache := [⟨"npm_temporary", "abcdef01", sampleFile⟩]
  dirs := fun op => if op = sampleOp then some { plan := ⟨"npm_temporary", 900, [sampleItem]⟩ } else none
  opened := none
  history := ⟨0, [], [], [], []⟩

def samplePatterns : String → Option (String → Bool) := fun _ => some fun _ => true

def sampleAnswer : ∀ q, Reply q
  | .fault => false
  | .gate _ => .ok ()
  | .clock => (1 : ℚ)
  | .stamp => (1 : ℤ)
  | .probe => .ok []
  | .links => (1 : ℕ)
  | .compress chunk => chunk.getD []
  | .newKey => ⟨1, 8⟩

/-- An execution when it has moved the file. -/
def sampleMoved : Desk Disk Reply Answer :=
  (Desk.advance sampleAnswer)^[25] ⟨sampleDisk, some (execute some samplePatterns "npm_temporary" sampleOp)⟩

/-- The execution died there, and a restoration has linked the file back. -/
def sampleLinked : Desk Disk Reply Answer :=
  (Desk.advance sampleAnswer)^[14]
    ⟨closeFile sampleMoved.state, some (restore some samplePatterns "npm_temporary" sampleOp)⟩

/-- The owner deleted the file then, and the restoration has unlinked the staged one. -/
def sampleDeleted : Desk Disk Reply Answer :=
  (Desk.advance sampleAnswer)^[2] { sampleLinked with state := { sampleLinked.state with cache := [] } }

theorem sampleMoved_reachable : (maintenanceMachine some samplePatterns).Reachable sampleMoved := by
  have hstart : (maintenanceMachine some samplePatterns).Reachable ⟨sampleDisk, none⟩ := by
    refine .start ⟨⟨by decide +kernel, rfl, fun op d hd => ?_⟩, rfl⟩
    simp only [sampleDisk] at hd
    split_ifs at hd
    obtain rfl := Option.some.inj hd
    exact ⟨rfl, fun _ => rfl⟩
  refine reachable_advance_iterate sampleAnswer 25 (by decide +kernel) ?_
  exact .step hstart (.own (.start rfl ⟨_, _, Or.inl rfl⟩))

theorem sampleDeleted_reachable : (maintenanceMachine some samplePatterns).Reachable sampleDeleted := by
  have hdied : (maintenanceMachine some samplePatterns).Reachable ⟨closeFile sampleMoved.state, none⟩ :=
    .step sampleMoved_reachable (.own .leave)
  have hlinked : (maintenanceMachine some samplePatterns).Reachable sampleLinked := by
    refine reachable_advance_iterate sampleAnswer 14 (by decide +kernel) ?_
    exact .step hdied (.own (.start rfl ⟨_, _, Or.inr rfl⟩))
  refine reachable_advance_iterate sampleAnswer 2 (by decide +kernel) ?_
  exact .step hlinked (.others ⟨[], rfl⟩ (by decide +kernel))

/-- A file that was taken and linked back is nowhere when its owner deletes it before the staged
    file is unlinked. -/
theorem deleted_is_lost : ∃ w, (maintenanceMachine some samplePatterns).Reachable w ∧
    (sampleOp, sampleItem, sampleFile.content) ∈ w.state.history.taken ∧
    w.state.original sampleOp sampleItem.id = none ∧ w.state.archive sampleOp sampleItem.id = none ∧
    w.state.cache = [] :=
  ⟨sampleDeleted, sampleDeleted_reachable, by decide +kernel, by decide +kernel, by decide +kernel,
    by decide +kernel⟩

theorem quarantine_keeps_sample :
    (∃ c, sampleMoved.state.Staged sampleOp sampleItem.id c) ∧ sampleMoved.state.cache = [] := by
  have hempty : sampleMoved.state.sealOf sampleOp sampleItem.id = none ∧
      sampleMoved.state.history.restored = [] := by
    constructor
    · exact Option.isNone_iff_eq_none.1 (by decide +kernel)
    · decide +kernel
  refine ⟨⟨sampleFile.content, ?_⟩, by decide +kernel⟩
  rcases (quarantine_keeps sampleMoved_reachable).1 sampleOp sampleItem sampleFile.content
    (by decide +kernel) with h | ⟨p, hp, b, v, -, -, hv, -⟩ | ⟨row, -, hr⟩
  · exact h
  · rw [Disk.sealOf, hp, Option.bind_some, hv] at hempty
    cases hempty.1
  · rw [hempty.2] at hr
    cases hr

end

end SmartHome.StorageMaintenance
