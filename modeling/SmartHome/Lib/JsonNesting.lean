/-
  Brackets of a JSON text: what the parser reads has all its brackets closed, and an object's
  text that is cut short has not, so it is no JSON text.
-/
import Mathlib.Data.Bool.AllAny
import SmartHome.Lib.Json

namespace Verif.Json

/-! ## Places in a text -/

/-- A place in a text: how many brackets are open, and inside a string whether the character
    before was a backslash. -/
structure Place where
  depth : ℕ
  quoted : Option Bool
  deriving DecidableEq, Repr

/-- The place after a character. -/
def Place.next (p : Place) (c : Char) : Place :=
  match p.quoted with
  | some true => { p with quoted := some false }
  | some false =>
    if c = '\\' then { p with quoted := some true }
    else if c = '"' then { p with quoted := none }
    else p
  | none =>
    if c = '"' then { p with quoted := some false }
    else if c = '{' ∨ c = '[' then { p with depth := p.depth + 1 }
    else if c = '}' ∨ c = ']' then { p with depth := p.depth - 1 }
    else p

/-- The place after a text. -/
def scan (p : Place) (t : List Char) : Place := t.foldl Place.next p

@[simp] theorem scan_nil (p : Place) : scan p [] = p := rfl

@[simp] theorem scan_cons (p : Place) (c : Char) (t : List Char) :
    scan p (c :: t) = scan (p.next c) t := rfl

theorem scan_append (p : Place) (t u : List Char) : scan p (t ++ u) = scan (scan p t) u :=
  List.foldl_append

/-- No more brackets are closed in the text than leave `d` open. -/
def Above (d : ℕ) (p : Place) (t : List Char) : Prop := ∀ s, s <+: t → d ≤ (scan p s).depth

variable {d : ℕ} {p : Place} {c : Char} {t u r : List Char}

theorem above_nil : Above d p [] ↔ d ≤ p.depth := by
  simp [Above]

theorem above_cons : Above d p (c :: t) ↔ d ≤ p.depth ∧ Above d (p.next c) t := by
  constructor
  · intro h
    refine ⟨h [] List.nil_prefix, fun s hs => ?_⟩
    exact h (c :: s) (List.cons_prefix_cons.2 ⟨rfl, hs⟩)
  · rintro ⟨hp, h⟩ s hs
    cases s with
    | nil => exact hp
    | cons e s =>
      obtain ⟨rfl, hs'⟩ := List.cons_prefix_cons.1 hs
      exact h s hs'

theorem above_append : Above d p (t ++ u) ↔ Above d p t ∧ Above d (scan p t) u := by
  induction t generalizing p with
  | nil =>
    rw [List.nil_append, above_nil, scan_nil]
    exact ⟨fun h => ⟨h [] List.nil_prefix, h⟩, And.right⟩
  | cons c t ih => rw [List.cons_append, above_cons, above_cons, ih, scan_cons, and_assoc]

/-- A text that closes the brackets and strings it opens, and no others. -/
def Balanced (t : List Char) : Prop :=
  ∀ d, scan ⟨d, none⟩ t = ⟨d, none⟩ ∧ Above d ⟨d, none⟩ t

theorem Balanced.nil : Balanced [] := fun _ => ⟨rfl, above_nil.2 le_rfl⟩

theorem Balanced.append (ht : Balanced t) (hu : Balanced u) : Balanced (t ++ u) := by
  intro d
  rw [scan_append, above_append, (ht d).1]
  exact ⟨(hu d).1, (ht d).2, (hu d).2⟩

/-- A character that opens and closes nothing. -/
def Neutral (c : Char) : Prop := c ∉ ['"', '{', '[', '}', ']']

instance (c : Char) : Decidable (Neutral c) := inferInstanceAs (Decidable (¬ _))

theorem Neutral.next (h : Neutral c) : Place.next ⟨d, none⟩ c = ⟨d, none⟩ := by
  simp only [Neutral, List.mem_cons, List.not_mem_nil, or_false, not_or] at h
  obtain ⟨h1, h2, h3, h4, h5⟩ := h
  simp only [Place.next, h1, h2, h3, h4, h5, or_self, if_false]

/-- A neutral character changes no depth, wherever it stands. -/
theorem Neutral.depth (h : Neutral c) : (p.next c).depth = p.depth := by
  obtain ⟨d, q⟩ := p
  rcases q with - | q
  · rw [h.next]
  · cases q
    · simp only [Place.next]
      split_ifs <;> rfl
    · rfl

theorem Balanced.neutral (h : ∀ c ∈ t, Neutral c) : Balanced t := by
  induction t with
  | nil => exact Balanced.nil
  | cons c t ih =>
    intro d
    have hc := (h c List.mem_cons_self).next (d := d)
    obtain ⟨hs, ha⟩ := ih (fun e he => h e (List.mem_cons_of_mem _ he)) d
    rw [scan_cons, above_cons, hc]
    exact ⟨hs, le_rfl, ha⟩

theorem next_open (h : c = '{' ∨ c = '[') : Place.next ⟨d, none⟩ c = ⟨d + 1, none⟩ := by
  have hq : c ≠ '"' := by rcases h with rfl | rfl <;> decide
  simp only [Place.next, hq, if_false, h, if_true]

theorem next_close (h : c = '}' ∨ c = ']') : Place.next ⟨d + 1, none⟩ c = ⟨d, none⟩ := by
  have hq : c ≠ '"' := by rcases h with rfl | rfl <;> decide
  have ho : ¬ (c = '{' ∨ c = '[') := by rcases h with rfl | rfl <;> decide
  simp only [Place.next, hq, ho, if_false, h, if_true, Nat.add_sub_cancel]

theorem Above.mono {d' : ℕ} (h : Above d p t) (hd : d' ≤ d) : Above d' p t :=
  fun s hs => hd.trans (h s hs)

theorem Balanced.bracket {o e : Char} (ho : o = '{' ∨ o = '[') (he : e = '}' ∨ e = ']')
    (h : Balanced t) : Balanced (o :: (t ++ [e])) := by
  intro d
  obtain ⟨hs, ha⟩ := h (d + 1)
  rw [scan_cons, above_cons, next_open ho, scan_append, above_append, hs, scan_cons, scan_nil,
    above_cons, next_close he, above_nil]
  exact ⟨rfl, le_rfl, ha.mono (by omega), by simp, le_rfl⟩

/-! ## What the parser reads -/

theorem skipWs_split (cs : List Char) : ∃ w, Balanced w ∧ cs = w ++ skipWs cs := by
  induction cs with
  | nil => exact ⟨[], .nil, rfl⟩
  | cons c cs ih =>
    rw [skipWs]
    split
    · rename_i hc
      obtain ⟨w, hw, hcs⟩ := ih
      refine ⟨c :: w, ?_, by rw [List.cons_append, ← hcs]⟩
      have hn : Balanced [c] := .neutral (List.all_iff_forall_prop.1 (by rcases hc with rfl | rfl | rfl | rfl <;> decide))
      exact hn.append hw
    · exact ⟨[], .nil, rfl⟩

/-- A string body from inside the string to the place after its closing quote. -/
def Body (t : List Char) : Prop :=
  ∀ d, scan ⟨d, some false⟩ t = ⟨d, none⟩ ∧ Above d ⟨d, some false⟩ t

theorem Body.cons (hc : ∀ d, Place.next ⟨d, some false⟩ c = ⟨d, some false⟩) (h : Body t) :
    Body (c :: t) := by
  intro d
  rw [scan_cons, above_cons, hc d]
  exact ⟨(h d).1, le_rfl, (h d).2⟩

theorem Body.escape (h : Body t) : Body ('\\' :: c :: t) := by
  intro d
  have h1 : Place.next ⟨d, some false⟩ '\\' = ⟨d, some true⟩ := rfl
  have h2 : Place.next ⟨d, some true⟩ c = ⟨d, some false⟩ := rfl
  rw [scan_cons, scan_cons, above_cons, above_cons, h1, h2]
  exact ⟨(h d).1, le_rfl, le_rfl, (h d).2⟩

theorem next_inside (h1 : c ≠ '\\') (h2 : c ≠ '"') (d : ℕ) :
    Place.next ⟨d, some false⟩ c = ⟨d, some false⟩ := by
  simp only [Place.next, h1, h2, if_false]

theorem hexVal_inside (h : (hexVal c).isSome) (d : ℕ) :
    Place.next ⟨d, some false⟩ c = ⟨d, some false⟩ := by
  refine next_inside ?_ ?_ d <;> rintro rfl <;> revert h <;> decide

theorem readStr_split {cs : List Char} {us : List ℕ} (h : readStr cs = some (us, r)) :
    ∃ t, Body t ∧ cs = t ++ r := by
  induction cs using readStr.induct generalizing us with
  | case1 => simp [readStr] at h
  | case2 cs =>
    obtain ⟨-, rfl⟩ : [] = us ∧ cs = r := by simpa [readStr] using h
    refine ⟨['"'], fun d => ⟨rfl, ?_⟩, rfl⟩
    rw [above_cons, above_nil]
    exact ⟨le_rfl, le_rfl⟩
  | case3 a b c d cs ih =>
    simp only [readStr, Option.bind_eq_bind, Option.bind_eq_some_iff, Option.some.injEq,
      Option.pure_def, Prod.exists, Prod.mk.injEq] at h
    obtain ⟨_, ha, _, hb, _, hc, _, hd, us, r, h, -, rfl⟩ := h
    obtain ⟨t, ht, rfl⟩ := ih h
    have hin : ∀ {e : Char} {v : ℕ}, hexVal e = some v → ∀ d,
        Place.next ⟨d, some false⟩ e = ⟨d, some false⟩ :=
      fun he => hexVal_inside (by rw [he]; rfl)
    exact ⟨'\\' :: 'u' :: a :: b :: c :: d :: t,
      (((ht.cons (hin hd)).cons (hin hc)).cons (hin hb)).cons (hin ha) |>.escape, rfl⟩
  | case4 c cs hne ih =>
    rw [readStr] at h
    · simp only [Option.bind_eq_bind, Option.bind_eq_some_iff, Option.some.injEq,
        Option.pure_def, Prod.exists, Prod.mk.injEq] at h
      obtain ⟨_, -, us, r, h, -, rfl⟩ := h
      obtain ⟨t, ht, rfl⟩ := ih h
      exact ⟨'\\' :: c :: t, ht.escape, rfl⟩
    · exact hne
  | case5 c cs h1 _ h2 ih =>
    rw [readStr] at h
    · simp only [Option.bind_eq_bind, Option.bind_eq_some_iff, Option.some.injEq,
        Option.pure_def, Prod.exists, Prod.mk.injEq] at h
      obtain ⟨_, -, us, r, h, -, rfl⟩ := h
      have hb : c ≠ '\\' := by
        -- a last backslash leaves nothing to read
        rintro rfl
        cases cs with
        | nil => simp [readStr] at h
        | cons e cs => exact h2 e cs rfl rfl
      obtain ⟨t, ht, rfl⟩ := ih h
      exact ⟨c :: t, ht.cons (next_inside hb h1), rfl⟩
    all_goals assumption

theorem digit_neutral (h : c.isDigit) : Neutral c := by
  intro hc
  fin_cases hc <;> revert h <;> decide

theorem digits_split (cs : List Char) :
    ∃ t, (∀ c ∈ t, Neutral c) ∧ cs = t ++ cs.dropWhile Char.isDigit :=
  ⟨cs.takeWhile Char.isDigit, fun c hc => digit_neutral (List.all_eq_true.1 List.all_takeWhile c hc),
    List.takeWhile_append_dropWhile.symm⟩

/-- An exponent's letter and sign, and the digits after them. -/
theorem dropExp_cons (c : Char) (cs : List Char) : ∃ s ds, (∀ c ∈ s, Neutral c) ∧ cs = s ++ ds ∧
    dropExp (c :: cs) = if c = 'e' ∨ c = 'E' then
      if (ds.takeWhile Char.isDigit).isEmpty then none else some (ds.dropWhile Char.isDigit)
    else none := by
  rcases cs with - | ⟨e, cs⟩
  · exact ⟨[], [], List.all_iff_forall_prop.1 (by decide), rfl, rfl⟩
  · by_cases h1 : e = '+'
    · subst h1
      exact ⟨['+'], cs, List.all_iff_forall_prop.1 (by decide), rfl, rfl⟩
    · by_cases h2 : e = '-'
      · subst h2
        exact ⟨['-'], cs, List.all_iff_forall_prop.1 (by decide), rfl, rfl⟩
      · exact ⟨[], e :: cs, List.all_iff_forall_prop.1 (by decide), rfl, by simp [dropExp, h1, h2]⟩

theorem dropExp_split {cs : List Char} (h : dropExp cs = some r) :
    ∃ t, (∀ c ∈ t, Neutral c) ∧ cs = t ++ r := by
  cases cs with
  | nil => simp [dropExp] at h
  | cons c cs =>
    obtain ⟨s, ds, hs, rfl, heq⟩ := dropExp_cons c cs
    rw [heq] at h
    split at h
    · rename_i hc
      have hn : Neutral c := by rcases hc with rfl | rfl <;> decide
      split at h
      · cases h
      · obtain rfl := Option.some.inj h
        obtain ⟨t, ht, hds⟩ := digits_split ds
        refine ⟨c :: (s ++ t), ?_, by rw [List.cons_append, List.append_assoc, ← hds]⟩
        simp only [List.mem_cons, List.mem_append]
        rintro e (rfl | he | he)
        · exact hn
        · exact hs e he
        · exact ht e he
    · cases h

theorem numberTail_split (m : ℤ) (cs : List Char) :
    ∃ t, (∀ c ∈ t, Neutral c) ∧ cs = t ++ (numberTail m cs).2 := by
  have hexp : ∀ ds, ∃ t, (∀ c ∈ t, Neutral c) ∧ ds = t ++ (dropExp ds).getD ds := by
    intro ds
    cases hd : dropExp ds with
    | none => exact ⟨[], by simp, rfl⟩
    | some r => exact dropExp_split hd
  unfold numberTail
  split
  · rename_i ds
    split
    · exact ⟨[], by simp, rfl⟩
    · obtain ⟨t, ht, hds⟩ := digits_split ds
      obtain ⟨u, hu, hr⟩ := hexp (ds.dropWhile Char.isDigit)
      refine ⟨'.' :: (t ++ u), ?_, ?_⟩
      · have hdot : Neutral '.' := by decide
        simp only [List.mem_cons, List.mem_append]
        rintro c (rfl | hc | hc)
        · exact hdot
        · exact ht c hc
        · exact hu c hc
      · rw [List.cons_append, List.append_assoc, ← hr, ← hds]
  · obtain ⟨t, ht, hr⟩ := hexp cs
    refine ⟨t, ht, ?_⟩
    cases hd : dropExp cs with
    | none => simpa [hd] using hr
    | some r => simpa [hd] using hr

theorem parseNat_split {cs : List Char} {m : ℕ} (h : parseNat cs = some (m, r)) :
    ∃ t, (∀ c ∈ t, Neutral c) ∧ cs = t ++ r := by
  unfold parseNat at h
  split at h
  · cases h
  · cases h
  · obtain ⟨-, rfl⟩ := Prod.mk.inj (Option.some.inj h)
    exact digits_split cs

theorem parseNumber_split {cs : List Char} {v : Json} (h : parseNumber cs = some (v, r)) :
    ∃ t, Balanced t ∧ cs = t ++ r := by
  have hnum : ∀ {ds : List Char} {m : ℕ} {r'} (z : ℤ), parseNat ds = some (m, r') →
      (numberTail z r').2 = r → ∃ t, (∀ c ∈ t, Neutral c) ∧ ds = t ++ r := by
    rintro ds m r' z hp rfl
    obtain ⟨t, ht, rfl⟩ := parseNat_split hp
    obtain ⟨u, hu, hr⟩ := numberTail_split z r'
    refine ⟨t ++ u, ?_, by rw [List.append_assoc, ← hr]⟩
    simp only [List.mem_append]
    rintro c (hc | hc)
    · exact ht c hc
    · exact hu c hc
  unfold parseNumber at h
  split at h
  · rename_i ds
    obtain ⟨⟨m, r'⟩, hp, hv⟩ := Option.map_eq_some_iff.1 h
    obtain ⟨t, ht, rfl⟩ := hnum _ hp (congrArg Prod.snd hv)
    refine ⟨'-' :: t, Balanced.neutral ?_, rfl⟩
    simpa [show Neutral '-' by decide] using ht
  · obtain ⟨⟨m, r'⟩, hp, hv⟩ := Option.map_eq_some_iff.1 h
    obtain ⟨t, ht, hds⟩ := hnum _ hp (congrArg Prod.snd hv)
    exact ⟨t, Balanced.neutral ht, hds⟩

theorem parseStr_split {cs : List Char} {s : String} (h : parseStr cs = some (s, r)) :
    ∃ t, Body t ∧ cs = t ++ r := by
  obtain ⟨⟨us, r'⟩, hr, hs⟩ := Option.map_eq_some_iff.1 h
  obtain rfl : r' = r := congrArg Prod.snd hs
  exact readStr_split hr

theorem Body.balanced (h : Body t) : Balanced ('"' :: t) := by
  intro d
  have hq : Place.next ⟨d, none⟩ '"' = ⟨d, some false⟩ := rfl
  rw [scan_cons, above_cons, hq]
  exact ⟨(h d).1, le_rfl, (h d).2⟩

/-- **What the parser reads is balanced**: a value, the elements before a closing bracket, the
    members before a closing brace. -/
theorem parse_split (n : ℕ) :
    (∀ cs v r, parseValue n cs = some (v, r) → ∃ t, Balanced t ∧ cs = t ++ r) ∧
    (∀ cs xs r, parseElems n cs = some (xs, r) → ∃ t, Balanced t ∧ cs = t ++ ']' :: r) ∧
    ∀ cs kvs r, parseMembers n cs = some (kvs, r) → ∃ t, Balanced t ∧ cs = t ++ '}' :: r := by
  induction n with
  | zero => simp [parseValue, parseElems, parseMembers]
  | succ n ih =>
    obtain ⟨ihv, ihe, ihm⟩ := ih
    refine ⟨?_, ?_, ?_⟩
    · intro cs v r h
      obtain ⟨w, hw, hcs⟩ := skipWs_split cs
      rw [parseValue] at h
      suffices hsuf : ∃ t, Balanced t ∧ skipWs cs = t ++ r by
        obtain ⟨t, ht, hr⟩ := hsuf
        exact ⟨w ++ t, hw.append ht, by rw [List.append_assoc, ← hr, ← hcs]⟩
      split at h
      · rename_i ds hds
        obtain ⟨w', hw', hcs'⟩ := skipWs_split ds
        rw [hds, hcs']
        split at h
        · rename_i es hes
          obtain ⟨-, rfl⟩ := Prod.mk.inj (Option.some.inj h)
          exact ⟨_, hw'.bracket (Or.inl rfl) (Or.inl rfl), by rw [hes]; simp⟩
        · obtain ⟨⟨kvs, r'⟩, hp, hv⟩ := Option.map_eq_some_iff.1 h
          obtain rfl : r' = r := congrArg Prod.snd hv
          obtain ⟨t, ht, hr⟩ := ihm _ _ _ hp
          exact ⟨_, (hw'.append ht).bracket (Or.inl rfl) (Or.inl rfl), by rw [hr]; simp⟩
      · rename_i ds hds
        obtain ⟨w', hw', hcs'⟩ := skipWs_split ds
        rw [hds, hcs']
        split at h
        · rename_i es hes
          obtain ⟨-, rfl⟩ := Prod.mk.inj (Option.some.inj h)
          exact ⟨_, hw'.bracket (Or.inr rfl) (Or.inr rfl), by rw [hes]; simp⟩
        · obtain ⟨⟨xs, r'⟩, hp, hv⟩ := Option.map_eq_some_iff.1 h
          obtain rfl : r' = r := congrArg Prod.snd hv
          obtain ⟨t, ht, hr⟩ := ihe _ _ _ hp
          exact ⟨_, (hw'.append ht).bracket (Or.inr rfl) (Or.inr rfl), by rw [hr]; simp⟩
      · rename_i ds hds
        obtain ⟨⟨s, r'⟩, hp, hv⟩ := Option.map_eq_some_iff.1 h
        obtain rfl : r' = r := congrArg Prod.snd hv
        obtain ⟨t, ht, hr⟩ := parseStr_split hp
        exact ⟨_, ht.balanced, by rw [hds, hr]; rfl⟩
      · rename_i ds hds
        obtain ⟨-, rfl⟩ := Prod.mk.inj (Option.some.inj h)
        exact ⟨['t', 'r', 'u', 'e'], .neutral (List.all_iff_forall_prop.1 (by decide)), hds⟩
      · rename_i ds hds
        obtain ⟨-, rfl⟩ := Prod.mk.inj (Option.some.inj h)
        exact ⟨['f', 'a', 'l', 's', 'e'], .neutral (List.all_iff_forall_prop.1 (by decide)), hds⟩
      · rename_i ds hds
        obtain ⟨-, rfl⟩ := Prod.mk.inj (Option.some.inj h)
        exact ⟨['n', 'u', 'l', 'l'], .neutral (List.all_iff_forall_prop.1 (by decide)), hds⟩
      · exact parseNumber_split h
    · intro cs xs r h
      rw [parseElems, Option.bind_eq_bind, Option.bind_eq_some_iff] at h
      obtain ⟨⟨x, ds⟩, hx, h⟩ := h
      obtain ⟨t, ht, rfl⟩ := ihv _ _ _ hx
      obtain ⟨w, hw, hcs⟩ := skipWs_split ds
      rw [hcs]
      dsimp only at h
      split at h
      · rename_i es hes
        rw [Option.bind_eq_bind, Option.bind_eq_some_iff] at h
        obtain ⟨⟨ys, r'⟩, hys, h⟩ := h
        obtain rfl : r' = r := congrArg Prod.snd (Option.some.inj h)
        obtain ⟨u, hu, rfl⟩ := ihe _ _ _ hys
        have hcomma : Balanced [','] := .neutral (List.all_iff_forall_prop.1 (by decide))
        exact ⟨t ++ (w ++ (',' :: u)), ht.append (hw.append (hcomma.append hu)), by rw [hes]; simp⟩
      · rename_i es hes
        obtain rfl : es = r := congrArg Prod.snd (Option.some.inj h)
        exact ⟨t ++ w, ht.append hw, by rw [hes]; simp⟩
      · cases h
    · intro cs kvs r h
      obtain ⟨w, hw, hcs⟩ := skipWs_split cs
      rw [hcs]
      rw [parseMembers] at h
      split at h
      · rename_i ds hds
        rw [hds]
        rw [Option.bind_eq_bind, Option.bind_eq_some_iff] at h
        obtain ⟨⟨k, es⟩, hk, h⟩ := h
        obtain ⟨t, ht, rfl⟩ := parseStr_split hk
        obtain ⟨w1, hw1, hes⟩ := skipWs_split es
        rw [hes]
        dsimp only at h
        split at h
        · rename_i fs hfs
          rw [hfs]
          rw [Option.bind_eq_bind, Option.bind_eq_some_iff] at h
          obtain ⟨⟨v, gs⟩, hv, h⟩ := h
          obtain ⟨u, hu, rfl⟩ := ihv _ _ _ hv
          obtain ⟨w2, hw2, hgs⟩ := skipWs_split gs
          rw [hgs]
          dsimp only at h
          have hcolon : Balanced [':'] := .neutral (List.all_iff_forall_prop.1 (by decide))
          have hmember := hw.append (ht.balanced.append (hw1.append (hcolon.append (hu.append hw2))))
          split at h
          · rename_i js hjs
            rw [Option.bind_eq_bind, Option.bind_eq_some_iff] at h
            obtain ⟨⟨ms, r'⟩, hms, h⟩ := h
            obtain rfl : r' = r := congrArg Prod.snd (Option.some.inj h)
            obtain ⟨y, hy, rfl⟩ := ihm _ _ _ hms
            have hcomma : Balanced [','] := .neutral (List.all_iff_forall_prop.1 (by decide))
            exact ⟨_, hmember.append (hcomma.append hy), by rw [hjs]; simp⟩
          · rename_i js hjs
            obtain rfl : js = r := congrArg Prod.snd (Option.some.inj h)
            exact ⟨_, hmember, by rw [hjs]; simp⟩
          · cases h
        · cases h
      · cases h

/-! ## Objects cut short -/

theorem balanced_renderMembers (kvs : List (String × Json)) : Balanced (renderMembers kvs) := by
  cases kvs with
  | nil => exact Balanced.nil
  | cons m kvs =>
    obtain ⟨t, ht, h⟩ := (parse_split _).2.2 _ _ _
      (parseMembers_render m.1 m.2 kvs _ [] le_rfl stops_nil)
    rwa [List.append_cancel_right h]

/-- A text with an open bracket is no JSON text. -/
theorem parse_open (h : 0 < (scan ⟨0, none⟩ t).depth) : parse t = none := by
  unfold parse
  split
  · rename_i v r hv
    rw [ite_eq_right_iff]
    intro hr
    obtain ⟨u, hu, rfl⟩ := (parse_split _).1 _ _ _ hv
    obtain ⟨w, hw, hrw⟩ := skipWs_split r
    rw [hr, List.append_nil] at hrw
    subst hrw
    rw [((hu.append hw) 0).1] at h
    exact absurd h (lt_irrefl 0)
  · rfl

theorem depth_take_object (kvs : List (String × Json)) {k : ℕ} (hk : k + 1 < (obj kvs).render.length) :
    1 ≤ (scan ⟨0, none⟩ ((obj kvs).render.take (k + 1))).depth := by
  rw [render] at hk ⊢
  simp only [List.length_cons, List.length_append, List.length_nil] at hk
  rw [List.take_succ_cons, scan_cons, next_open (Or.inl rfl), List.take_append_of_le_length (by omega)]
  exact (balanced_renderMembers kvs 1).2 _ (List.take_prefix _ _)

/-- **An object's text that is cut short is no JSON text.** -/
theorem parse_take_object (kvs : List (String × Json)) {k : ℕ} (hk : k < (obj kvs).render.length) :
    parse ((obj kvs).render.take k) = none := by
  cases k with
  | zero => rfl
  | succ k => exact parse_open (depth_take_object kvs hk)

/-- It is none either with one more character that opens and closes nothing and is no value. -/
theorem parse_take_object_append (kvs : List (String × Json)) {k : ℕ} (hk : k < (obj kvs).render.length)
    (hn : Neutral c) (hc : parse [c] = none) : parse ((obj kvs).render.take k ++ [c]) = none := by
  cases k with
  | zero => exact hc
  | succ k =>
    refine parse_open ?_
    rw [scan_append, scan_cons, scan_nil, hn.depth]
    exact depth_take_object kvs hk

/-! ## Characters -/

theorem escape_printable {c e : Char} (h : e ∈ escape c) : 32 ≤ e.toNat := by
  have hhex : ∀ d < 16, 32 ≤ (hexDigit d).toNat := by decide
  have hall : ∀ {l : List Char}, (l.all fun a => decide (32 ≤ a.toNat)) = true → ∀ a ∈ l, 32 ≤ a.toNat :=
    List.all_iff_forall_prop.1
  unfold escape at h
  split_ifs at h
  iterate 7 exact hall (by decide) e h
  · simp only [List.mem_cons, List.not_mem_nil, or_false] at h
    rcases h with rfl | rfl | rfl | rfl | rfl | rfl
    iterate 4 decide
    · exact hhex _ (by omega)
    · exact hhex _ (by omega)
  · obtain rfl := List.mem_singleton.1 h
    omega

theorem quote_printable {s : String} {e : Char} (h : e ∈ quote s) : 32 ≤ e.toNat := by
  rw [quote, List.mem_cons, List.mem_append, List.mem_flatMap, List.mem_singleton] at h
  rcases h with rfl | ⟨c, -, hc⟩ | rfl
  · decide
  · exact escape_printable hc
  · decide

mutual
/-- A value's text has no control characters, so it is one line. -/
theorem render_printable : ∀ (j : Json), ∀ e ∈ j.render, 32 ≤ e.toNat
  | null | bool true | bool false | real => by
    simp only [render]
    exact List.all_iff_forall_prop.1 (by decide)
  | int n => by
    have hd : ∀ e ∈ decimal n.natAbs, 32 ≤ e.toNat := by
      intro e he
      have h0 : 32 ≤ '0'.toNat := by decide
      exact h0.trans (Char.isDigit_iff_toNat.1 (decimal_isDigit e he)).1
    intro e he
    rw [render] at he
    split_ifs at he
    · rcases List.mem_cons.1 he with rfl | he
      · decide
      · exact hd e he
    · exact hd e he
  | str s => by
    intro e he
    rw [render] at he
    exact quote_printable he
  | arr xs => by
    intro e he
    rw [render, List.mem_cons, List.mem_append, List.mem_singleton] at he
    rcases he with rfl | he | rfl
    · decide
    · exact renderElems_printable xs e he
    · decide
  | obj kvs => by
    intro e he
    rw [render, List.mem_cons, List.mem_append, List.mem_singleton] at he
    rcases he with rfl | he | rfl
    · decide
    · exact renderMembers_printable kvs e he
    · decide

theorem renderElems_printable : ∀ (xs : List Json), ∀ e ∈ renderElems xs, 32 ≤ e.toNat
  | [], e, he => by simp [renderElems] at he
  | [x], e, he => render_printable x e he
  | x :: y :: xs, e, he => by
    rw [renderElems, List.mem_append, List.mem_cons] at he
    rcases he with he | rfl | he
    · exact render_printable x e he
    · decide
    · exact renderElems_printable (y :: xs) e he

theorem renderMembers_printable : ∀ (kvs : List (String × Json)), ∀ e ∈ renderMembers kvs, 32 ≤ e.toNat
  | [], e, he => by simp [renderMembers] at he
  | [(k, v)], e, he => by
    rw [renderMembers, List.mem_append, List.mem_cons] at he
    rcases he with he | rfl | he
    · exact quote_printable he
    · decide
    · exact render_printable v e he
  | (k, v) :: m :: kvs, e, he => by
    rw [renderMembers, List.mem_append, List.mem_cons, List.mem_append, List.mem_cons] at he
    rcases he with he | rfl | he | rfl | he
    · exact quote_printable he
    · decide
    · exact render_printable v e he
    · decide
    · exact renderMembers_printable (m :: kvs) e he
end

end Verif.Json
