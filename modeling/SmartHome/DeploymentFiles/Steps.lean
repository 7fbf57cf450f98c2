/-
  What the operations of a deployment do: one rule for each, where every operation may raise, and one
  where none does.
-/
import SmartHome.DeploymentFiles.Transaction
import SmartHome.Lib.Stays

namespace SmartHome.DeploymentFiles

open Verif Program Mqtt FileTransaction

section
variable [Sha256]

/-! ## Operations that may raise -/

variable {P : Disk → Prop} {α : Type} {post : α → Disk → Prop} {s : Disk}

omit [Sha256] in
theorem stays_fallible {k : Unit → Prog α} (hs : P s) (h : (k ()).Stays P post s) :
    (fallible >>= k).Stays P post s := by
  refine stays_bind (stays_ask hs fun succeeds => ?_)
  rw [← bind_pure (require _ _)]
  exact stays_require hs fun _ => stays_pure hs h

omit [Sha256] in
theorem stays_atomic {f : Disk → Disk} {k : Unit → Prog α} (hs : P s) (hf : P (f s))
    (h : (k ()).Stays P post (f s)) :
    ((do fallible; Program.atomic f fun _ => fallible : Prog Unit) >>= k).Stays P post s := by
  rw [bind_assoc]
  exact stays_fallible hs ⟨hs, stays_fallible hf h⟩

omit [Sha256] in
theorem stays_save {b : Body} {k : Unit → Prog α} (hs : P s) (hb : P (s.enter b))
    (h : (k ()).Stays P post (s.enter b)) : (save b >>= k).Stays P post s :=
  stays_atomic hs hb h

omit [Sha256] in
theorem stays_write {key : String} {raw : Option Bytes} {k : Unit → Prog α} (hs : P s)
    (hraw : P (s.put key raw))
    (h : (k ()).Stays P post (s.put key raw)) :
    (write key raw >>= k).Stays P post s := stays_atomic hs hraw h

omit [Sha256] in
theorem stays_current {key : String} {k : Option Bytes → Prog α} (hs : P s)
    (h : (k (s.target key)).Stays P post s) : (current key >>= k).Stays P post s := by
  rw [FileTransaction.current, bind_assoc]
  exact stays_fallible hs (stays_get hs h)

theorem stays_load {approval : Hex 64} {k : Option Body → Prog α} (hs : P s)
    (hnone : s.journal = none → (k none).Stays P post s)
    (hsome : ∀ b, s.journal = some b → b.manifest = approval → manifestHash b.spec = approval →
      (k (some b)).Stays P post s) : (load approval >>= k).Stays P post s := by
  rw [FileTransaction.load, bind_assoc]
  refine stays_fallible hs ?_
  rw [bind_assoc]
  refine stays_get hs ?_
  cases hb : s.journal with
  | none => exact hnone hb
  | some b =>
    simp only [bind_assoc]
    exact stays_require hs fun hm => stays_require hs fun hh => hsome b hb hm hh

theorem stays_replace {key : String} {raw : Bytes} {expected : Option (Hex 64)} {k : Unit → Prog α} (hs : P s)
    (h : digestOf (s.target key) = expected → P (s.put key (some raw)) ∧
      (k ()).Stays P post (s.put key (some raw))) :
    (replace key raw expected >>= k).Stays P post s := by
  rw [replace, bind_assoc]
  refine stays_current hs ?_
  rw [bind_assoc]
  refine stays_require hs fun hd => ?_
  rw [bind_assoc]
  refine stays_current hs ?_
  rw [bind_assoc]
  exact stays_require hs fun _ => stays_write hs (h hd).1 (h hd).2

theorem stays_digests {keys : List String} {k : (String → Option (Hex 64)) → Prog α} (hs : P s)
    (h : ∀ ds, (k ds).Stays P post s) : (digests keys >>= k).Stays P post s := by
  induction keys generalizing k with
  | nil => exact h _
  | cons key keys ih =>
    rw [digests, bind_assoc]
    refine stays_current hs ?_
    rw [bind_assoc]
    exact ih fun ds => h _

theorem stays_status {approval : Hex 64} {post : Option Status → Disk → Prop} (hs : P s) (h : ∀ o, post o s) :
    (status approval).Stays P post s := by
  refine stays_load hs (fun _ => stays_pure hs (h _)) fun b _ _ _ => ?_
  exact stays_digests hs fun ds => stays_pure hs (h _)

theorem stays_compareAll {spec : Spec} {keys : List String} {k : Unit → Prog α} (hs : P s)
    (h : (∀ key ∈ keys, digestOf (s.target key) = (spec key).before) → (k ()).Stays P post s) :
    (compareAll spec keys >>= k).Stays P post s := by
  induction keys with
  | nil => exact h fun key hkey => absurd hkey List.not_mem_nil
  | cons key keys ih =>
    rw [compareAll, bind_assoc]
    refine stays_current hs ?_
    rw [bind_assoc]
    refine stays_require hs fun hd => ih fun hrest => h fun key' hkey' => ?_
    rcases List.mem_cons.1 hkey' with rfl | hkey'
    · exact hd
    · exact hrest key' hkey'

/-! ## Operations that do not raise -/

def succeeding : Unit → Bool := fun _ => true

omit [Sha256] in
theorem ends_fallible {k : Unit → Prog α} (h : (k ()).Ends succeeding post s) :
    (fallible >>= k).Ends succeeding post s := h

omit [Sha256] in
theorem ends_current {key : String} {k : Option Bytes → Prog α} (h : (k (s.target key)).Ends succeeding post s) :
    (current key >>= k).Ends succeeding post s := h

omit [Sha256] in
theorem ends_save {b : Body} {k : Unit → Prog α} (h : (k ()).Ends succeeding post (s.enter b)) :
    (save b >>= k).Ends succeeding post s := h

theorem ends_load {approval : Hex 64} {b : Body} {k : Option Body → Prog α} (hb : s.journal = some b)
    (hmanifest : b.manifest = approval) (hvalid : manifestHash b.spec = approval)
    (h : (k (some b)).Ends succeeding post s) : (load approval >>= k).Ends succeeding post s := by
  rw [FileTransaction.load, bind_assoc]
  refine ends_fallible ?_
  rw [bind_assoc]
  refine ends_get ?_
  rw [hb]
  simp only [bind_assoc]
  exact ends_require hmanifest (ends_require hvalid h)

theorem ends_digests {keys : List String} {k : (String → Option (Hex 64)) → Prog α}
    (h : ∀ ds, (k ds).Ends succeeding post s) : (digests keys >>= k).Ends succeeding post s := by
  induction keys generalizing k with
  | nil => exact h _
  | cons key keys ih =>
    rw [digests, bind_assoc]
    refine ends_current ?_
    rw [bind_assoc]
    exact ih fun ds => h _

theorem ends_status {approval : Hex 64} {b : Body} {post : Option Status → Disk → Prop} (hb : s.journal = some b)
    (hmanifest : b.manifest = approval) (hvalid : manifestHash b.spec = approval) (h : ∀ o, post o s) :
    (status approval).Ends succeeding post s := by
  rw [status]
  refine ends_load hb hmanifest hvalid ?_
  -- what is read does not matter
  generalize targets = keys
  exact ends_digests fun ds => ends_pure (h _)

theorem ends_replace {key : String} {raw : Bytes} {expected : Option (Hex 64)} {k : Unit → Prog α}
    (hd : digestOf (s.target key) = expected) (h : (k ()).Ends succeeding post (s.put key (some raw))) :
    (replace key raw expected >>= k).Ends succeeding post s := by
  rw [replace, bind_assoc]
  refine ends_current ?_
  rw [bind_assoc]
  refine ends_require hd ?_
  rw [bind_assoc]
  refine ends_current ?_
  rw [bind_assoc]
  exact ends_require hd h

theorem ends_compareAll {spec : Spec} {keys : List String} {k : Unit → Prog α}
    (hd : ∀ key ∈ keys, digestOf (s.target key) = (spec key).before) (h : (k ()).Ends succeeding post s) :
    (compareAll spec keys >>= k).Ends succeeding post s := by
  induction keys with
  | nil => exact h
  | cons key keys ih =>
    rw [compareAll, bind_assoc]
    refine ends_current ?_
    rw [bind_assoc]
    exact ends_require (hd key List.mem_cons_self) (ih fun key' hkey' => hd key' (List.mem_cons_of_mem _ hkey'))

omit [Sha256] in
theorem ends_copy {key : String} {raw : Bytes} {k : Unit → Prog α} (hnone : s.backup key = none)
    (h : (k ()).Ends succeeding post ((s.keep key (some [])).keep key (some raw))) :
    (copy key raw >>= k).Ends succeeding post s := by
  rw [copy, bind_assoc]
  refine ends_fallible ?_
  rw [bind_assoc]
  refine ends_transaction (show (if s.backup key = none then _ else _) = _ from if_pos hnone) ?_
  exact h

theorem ends_load_none {approval : Hex 64} {k : Option Body → Prog α} (hb : s.journal = none)
    (h : (k none).Ends succeeding post s) : (load approval >>= k).Ends succeeding post s := by
  rw [FileTransaction.load, bind_assoc]
  refine ends_fallible ?_
  rw [bind_assoc]
  refine ends_get ?_
  rw [hb]
  exact h

omit [Sha256] in
theorem ends_sync {k : Unit → Prog α} (h : (k ()).Ends succeeding post { s with synced := true }) :
    (sync >>= k).Ends succeeding post s := h

omit [Sha256] in
theorem ends_orInterrupt {β : Type} {b : Body} {p : Prog β} {k : β → Prog α}
    (h : p.Ends succeeding (fun a s => (k a).Ends succeeding post s) s) :
    (orInterrupt b p >>= k).Ends succeeding post s := by
  rw [orInterrupt, bind_assoc]
  exact ends_attempt h

end
end SmartHome.DeploymentFiles
