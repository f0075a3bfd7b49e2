import Mathlib.Logic.Relation
import ObjectStore.Proofs.Entity.Writes
import ObjectStore.Proofs.World.PendingWrite

/-!
This module follows an entity that is edited while saves are under way, with an adapter that applies
and answers calls in their order. It proves which edits get lost: a save that takes its answer forgets
that a part was changed if the part has the value that was sent, even if a later save that is still
under way is about to store another value.
-/

namespace ObjectStore

def Standing.op? : Standing → Option WriteOp
  | idle => none
  | waiting op | accepted op => some op

namespace Handle

def ops (x : Handle) (writes : List PendingWrite) : List WriteOp :=
  writes.filterMap fun c => (x.standing c).op?

def isChanged (x : Handle) (w : World) (p : Part) : Bool :=
  (x.entityIn w).isChanged p

/-- The stored form of the present value of a part. -/
def current? (x : Handle) (w : World) (p : Part) : Option PartValue :=
  (x.entityIn w).toRecord.part? p

def stored? (x : Handle) (w : World) (p : Part) : Option PartValue :=
  (x.stored w).bind (·.part? p)

/-- The adapter lets changes to the object through. -/
structure Accepting (x : Handle) (w : World) : Prop where
  online : (w.adapter x.adapter).offline = false
  accepted : x.object ∉ (w.adapter x.adapter).rejected

theorem Accepting.of_sameSettings {x : Handle} {w w' : World} (h : x.Accepting w)
    (hsame : (w'.adapter x.adapter).SameSettings (w.adapter x.adapter)) : x.Accepting w' := by
  constructor
  . rw [hsame.offline]
    exact h.online
  . rw [hsame.rejected]
    exact h.accepted

theorem ops_append (x : Handle) (writes writes' : List PendingWrite)
    : x.ops (writes ++ writes') = x.ops writes ++ x.ops writes' := by
  unfold ops
  apply List.filterMap_append

theorem ops_cons (x : Handle) (c : PendingWrite) (writes : List PendingWrite)
    : x.ops (c :: writes) = (x.standing c).op?.toList ++ x.ops writes := by
  unfold ops
  rw [List.filterMap_cons]
  cases (x.standing c).op? <;> rfl

/-- An adapter that lets changes through lets a patch fail only if nothing is stored. -/
theorem apply_cases {x : Handle} {w : World} {c : PendingWrite} (hx : x.Valid w)
    (haccepting : x.Accepting w) (howns : x.Owns c.dispatch) (hanswer : c.answer = none)
    (hstored : ∀ op, x.standing c = .waiting op → Adapter.isPut op = false →
      (x.stored w).isSome = true)
    : (x.standing c = .idle
          ∧
        x.standing (c.apply w).1 = .idle
          ∧
        x.stored (c.apply w).2 = x.stored w)
        ∨
      ∃ op, x.standing c = .waiting op
        ∧
      x.standing (c.apply w).1 = .accepted op
        ∧
      x.stored (c.apply w).2 = Adapter.overlay (x.stored w) op
        ∧
      (Adapter.isPut op = true ∨ (x.stored w).isSome = true) := by
  rcases find?_planned_of_answer_eq_none (x := x) hanswer with ⟨_, hidle⟩ | ⟨p, _, hwaiting⟩
  . obtain ⟨hstanding, hsame⟩ := apply_of_idle hx howns hanswer hidle
    exact .inl ⟨hidle, hstanding, hsame⟩
  . have htarget := (target_of_waiting howns hanswer hwaiting).2
    have hfit : Adapter.isPut p.op = true ∨ (x.stored w).isSome = true := by
      cases hput : Adapter.isPut p.op with
      | true => exact .inl rfl
      | false => exact .inr (hstored p.op hwaiting hput)
    have hrefuses : ¬x.Refuses w p.op := by
      rintro (hoffline | hrejected | ⟨hput, hnone⟩)
      . rw [haccepting.online] at hoffline
        cases hoffline
      . rw [htarget] at hrejected
        exact haccepting.accepted hrejected
      . have hisSome := hstored p.op hwaiting hput
        unfold stored at hisSome
        rw [← htarget] at hisSome
        change ((w.adapter x.adapter).record? p.op.typeName p.op.id).isSome = true at hisSome
        rw [hnone] at hisSome
        cases hisSome
    obtain ⟨hstanding, hoverlay⟩ := (apply_of_waiting hx howns hanswer hwaiting).2 hrefuses
    exact .inr ⟨p.op, hwaiting, hstanding, hoverlay, hfit⟩

theorem due_of_mem_ops_begin {x : Handle} {w : World} {b : Batch} (hsaves : b.SavesOnly)
    {op : WriteOp} (h : op ∈ x.ops (b.begin w).1) : Batch.Due (x.entityIn w) false op := by
  obtain ⟨c, hc, hop⟩ := List.mem_filterMap.1 h
  rcases standing_of_mem_begin (x := x) hc with hidle | ⟨op', hwaiting, _, slot, hslot, hdue⟩
  . rw [hidle] at hop
    cases hop
  . rw [hwaiting] at hop
    injection hop with hop
    rw [hop, hsaves slot hslot] at hdue
    exact hdue

end Handle

theorem Dispatch.isChanged_noted {e : Entity} {op : WriteOp} (hdelete : op.isDelete = false)
    (p : Part)
    : (noted e op).isChanged p
        =
      (e.isChanged p && !PartValue.agree (e.toRecord.part? p) (op.written? p).join) := by
  cases op with
  | put record => exact e.isChanged_markPersisted record p
  | patch record =>
    have hwritten : ((WriteOp.patch record).written? p).join = record.part? p := by
      unfold WriteOp.written?
      dsimp only
      cases record.part? p <;> rfl
    rw [hwritten]
    exact e.isChanged_markPersisted record p
  | delete typeName id => cases hdelete

/-- A world, the writes that wait for the adapter, and those that wait for their sender to take the
answer. Both come in the order in which they were sent. -/
structure EditSession where
  world : World
  waiting : List PendingWrite
  answered : List PendingWrite

/-- What goes on outside of an entity and its record. Related objects may become known. -/
structure Elsewhere (x : Handle) (w w' : World) : Prop where
  valid : x.Valid w'
  accepting : x.Accepting w'
  entity : ∃ links hasMany, x.entityIn w' = { x.entityIn w with links, hasMany }
  stored : x.stored w' = x.stored w

inductive EditStep (x : Handle) : EditSession → EditSession → Prop where
  | set {w : World} {waiting answered : List PendingWrite} (name : String) (v : Value)
    : EditStep x ⟨w, waiting, answered⟩ ⟨(w.set x.entity name v).2, waiting, answered⟩
  | setRelatedId {w : World} {waiting answered : List PendingWrite} (name : String)
    (id : Option String)
    : EditStep x ⟨w, waiting, answered⟩ ⟨(w.setRelatedId x.entity name id).2, waiting, answered⟩
  | save {w : World} {waiting answered : List PendingWrite} {e : EntityRef} {b : Batch}
    (hsave : (Batch.empty (w.entity e).store).save w e = .ok b) (halone : x.WritesAlone w b)
    : EditStep x ⟨w, waiting, answered⟩ ⟨(b.begin w).2, waiting ++ (b.begin w).1, answered⟩
  | apply {w : World} {c : PendingWrite} {waiting answered : List PendingWrite}
    : EditStep x ⟨w, c :: waiting, answered⟩
        ⟨(c.apply w).2, waiting, answered ++ [(c.apply w).1]⟩
  | complete {w : World} {c : PendingWrite} {waiting answered : List PendingWrite}
    : EditStep x ⟨w, waiting, c :: answered⟩ ⟨c.complete w, waiting, answered⟩
  | elsewhere {w w' : World} {waiting answered : List PendingWrite} (h : Elsewhere x w w')
    : EditStep x ⟨w, waiting, answered⟩ ⟨w', waiting, answered⟩

namespace EditSession

/-- A write under way is about to leave the stored part with another value than the present one. -/
def Overtakes (x : Handle) (s : EditSession) (p : Part) : Prop :=
  ∃ value, WriteOp.lastWritten? p (x.ops (s.answered ++ s.waiting)) = some value
    ∧
  PartValue.agree (x.current? s.world p) value = false

/-- A run, with the parts that were ever changed, and those that a write under way overtook when they
stopped to count as changed. -/
inductive Run (x : Handle) (w : World) : EditSession → (Part → Prop) → (Part → Prop) → Prop where
  | start : Run x w ⟨w, [], []⟩ (fun p => x.isChanged w p = true) fun _ => False
  | step {s s' : EditSession} {edited overtaken : Part → Prop}
    (hrun : Run x w s edited overtaken) (hstep : EditStep x s s')
    : Run x w s' (fun p => edited p ∨ x.isChanged s'.world p = true) fun p =>
        if x.isChanged s.world p = true ∧ x.isChanged s'.world p = false then
          Overtakes x s' p
        else
          overtaken p

/-- What every run keeps. The last two fields say what will be stored when all that waits has been
applied. -/
structure Kept (x : Handle) (s : EditSession) (edited overtaken : Part → Prop) : Prop where
  valid : x.Valid s.world
  accepting : x.Accepting s.world
  underway : PendingWrite.Underway (fun d => x.Owns d ∧ d.localDestroys = []) s.waiting s.answered
  noDelete : ∀ op ∈ x.ops (s.answered ++ s.waiting), op.isDelete = false
  stored : (x.entityIn s.world).persisted = true
      ∨ (∃ op ∈ x.ops s.waiting, Adapter.isPut op = false)
      ∨ x.ops s.answered ≠ [] →
    (x.stored s.world).isSome = true
  unsaved : (x.entityIn s.world).persisted = false →
    ∀ p, edited p → x.isChanged s.world p = true
  hasValue : ∀ p, edited p → (x.current? s.world p).isSome = true
  changed : ∀ p, x.isChanged s.world p = true → edited p
  base : ∀ p, ∃ value, x.stored? s.world p = WriteOp.leave p (x.ops s.answered) value
  settled : ∀ p, edited p → x.isChanged s.world p = false →
    (PartValue.agree (x.current? s.world p)
        (WriteOp.leave p (x.ops s.waiting) (x.stored? s.world p)) = true
      ↔
    ¬overtaken p)

variable {x : Handle} {w w' : World} {waiting answered : List PendingWrite}
  {edited overtaken : Part → Prop}

-- Both sides of a step of a run are brought into the form in which the cases of the step have them.
theorem Kept.edited_eq {s : EditSession} (h : Kept x s edited overtaken)
    : (fun p => edited p ∨ x.isChanged s.world p = true) = edited := by
  funext p
  apply propext
  constructor
  . rintro (hedited | hchanged)
    . exact hedited
    . exact h.changed p hchanged
  . exact .inl

theorem overtaken_eq (s s' : EditSession)
    (hstill : ∀ p, x.isChanged s.world p = true → x.isChanged s'.world p = true)
    : (fun p =>
        if x.isChanged s.world p = true ∧ x.isChanged s'.world p = false then
          Overtakes x s' p
        else
          overtaken p)
        =
      overtaken := by
  funext p
  rw [if_neg]
  rintro ⟨hchanged, hclean⟩
  rw [hstill p hchanged] at hclean
  cases hclean

theorem Kept.of_same_parts (h : Kept x ⟨w, waiting, answered⟩ edited overtaken)
    (hvalid : x.Valid w') (haccepting : x.Accepting w') (hstored : x.stored w' = x.stored w)
    (hpersisted : (x.entityIn w').persisted = (x.entityIn w).persisted)
    (hparts : ∀ p, x.current? w' p = x.current? w p ∧ x.isChanged w' p = x.isChanged w p)
    : Kept x ⟨w', waiting, answered⟩ edited overtaken := by
  have hcurrent : x.current? w' = x.current? w := by
    funext p
    exact (hparts p).1
  have hchanged : x.isChanged w' = x.isChanged w := by
    funext p
    exact (hparts p).2
  have hpart : x.stored? w' = x.stored? w := by
    funext p
    unfold Handle.stored?
    rw [hstored]
  obtain ⟨_, _, hunderway, hdelete, hisStored, hunsaved, hvalue, hedited, hbase, hsettled⟩ := h
  refine ⟨hvalid, haccepting, hunderway, hdelete, ?_, ?_, ?_, ?_, ?_, ?_⟩
  . dsimp only
    rw [hpersisted, hstored]
    exact hisStored
  . dsimp only
    rw [hpersisted, hchanged]
    exact hunsaved
  . dsimp only
    rw [hcurrent]
    exact hvalue
  . dsimp only
    rw [hchanged]
    exact hedited
  . dsimp only
    rw [hpart]
    exact hbase
  . dsimp only
    rw [hcurrent, hchanged, hpart]
    exact hsettled

theorem Kept.elsewhere (h : Kept x ⟨w, waiting, answered⟩ edited overtaken)
    (helse : Elsewhere x w w') : Kept x ⟨w', waiting, answered⟩ edited overtaken := by
  obtain ⟨links, hasMany, hentity⟩ := helse.entity
  apply h.of_same_parts helse.valid helse.accepting helse.stored
  . rw [hentity]
  . intro p
    unfold Handle.current? Handle.isChanged
    rw [hentity]
    cases p <;> exact ⟨rfl, rfl⟩

theorem entityIn_modifyEntity (hvalid : x.Valid w) (e : Entity)
    : x.entityIn (w.modifyEntity x.entity fun _ => e) = e := by
  unfold Handle.entityIn
  rw [World.entity_modifyEntity _ _ _ _ hvalid.entity_lt, if_pos rfl]

theorem Kept.edit (h : Kept x ⟨w, waiting, answered⟩ edited overtaken) {e : Entity} {part : Part}
    (hedit : Entity.Edited (x.entityIn w) e part)
    : Kept x ⟨w.modifyEntity x.entity fun _ => e, waiting, answered⟩
        (fun p => edited p ∨ x.isChanged (w.modifyEntity x.entity fun _ => e) p = true)
        overtaken := by
  have hentity := entityIn_modifyEntity h.valid e
  have hclean : ∀ p, x.isChanged (w.modifyEntity x.entity fun _ => e) p = false →
      x.current? (w.modifyEntity x.entity fun _ => e) p = x.current? w p
        ∧
      x.isChanged w p = false := by
    intro p hp
    unfold Handle.isChanged Handle.current? at *
    rw [hentity] at hp ⊢
    have hne : p ≠ part := by
      intro heq
      rw [heq, hedit.changed] at hp
      cases hp
    rw [(hedit.others p hne).2] at hp
    exact ⟨(hedit.others p hne).1, hp⟩
  have hvalid : x.Valid w := h.valid
  refine ⟨?_, ⟨h.accepting.online, h.accepting.accepted⟩, h.underway, h.noDelete, ?_, ?_, ?_, ?_,
    h.base, ?_⟩
  . refine hvalid.of_sameObject rfl (World.size_modifyEntity w x.entity _) ?_
    rw [hentity]
    exact ⟨hedit.identity, hedit.store⟩
  . dsimp only
    rw [hentity, hedit.persisted]
    exact h.stored
  . dsimp only
    rw [hentity, hedit.persisted]
    intro hpersisted p hp
    rcases hp with hp | hp
    . unfold Handle.isChanged
      rw [hentity]
      exact hedit.still_changed (h.unsaved hpersisted p hp)
    . exact hp
  . intro p hp
    by_cases heq : p = part
    . unfold Handle.current?
      dsimp only
      rw [hentity, heq]
      exact hedit.hasValue
    . have hcurrent : x.current? (w.modifyEntity x.entity fun _ => e) p = x.current? w p := by
        unfold Handle.current?
        rw [hentity]
        exact (hedit.others p heq).1
      have hold : edited p := by
        rcases hp with hp | hp
        . exact hp
        . apply h.changed
          unfold Handle.isChanged at hp ⊢
          rw [hentity, (hedit.others p heq).2] at hp
          exact hp
      dsimp only
      rw [hcurrent]
      exact h.hasValue p hold
  . intro p hp
    exact .inr hp
  . intro p hp hcleanp
    obtain ⟨hcurrent, hold⟩ := hclean p hcleanp
    have hedited : edited p := by
      rcases hp with hp | hp
      . exact hp
      . rw [hp] at hcleanp
        cases hcleanp
    dsimp only
    rw [hcurrent]
    exact h.settled p hedited hold

theorem Kept.begin (h : Kept x ⟨w, waiting, answered⟩ edited overtaken) {b : Batch}
    (hsaves : b.SavesOnly) : Kept x ⟨(b.begin w).2, waiting, answered⟩ edited overtaken := by
  have hvalid : x.Valid w := h.valid
  have hentity := Handle.entityIn_begin_of_savesOnly hvalid hsaves
  apply h.of_same_parts (hvalid.begin b)
    (h.accepting.of_sameSettings (Handle.sameSettings_begin hvalid b)) (Handle.stored_begin hvalid b)
  . rw [hentity]
  . intro p
    unfold Handle.current? Handle.isChanged
    rw [hentity]
    exact ⟨rfl, rfl⟩

-- An operation that leaves out a part is a patch, and one is sent only once the object is stored.
theorem Kept.written?_of_mem_ops_begin (h : Kept x ⟨w, waiting, answered⟩ edited overtaken)
    {b : Batch} (hsaves : b.SavesOnly) {p : Part} (hedited : edited p)
    (hclean : x.isChanged w p = false) {op : WriteOp} (hop : op ∈ x.ops (b.begin w).1)
    : op.written? p = none := by
  cases Handle.due_of_mem_ops_begin hsaves hop with
  | delete hdestroy _ => cases hdestroy
  | put _ hpersisted =>
    have hchanged := h.unsaved hpersisted p hedited
    rw [hclean] at hchanged
    cases hchanged
  | patch _ _ =>
    unfold Handle.isChanged at hclean
    unfold WriteOp.written?
    dsimp only
    rw [Entity.part?_toPatch, hclean]
    rfl

theorem Kept.save (h : Kept x ⟨w, waiting, answered⟩ edited overtaken) {b : Batch}
    (hproper : b.Proper w) (hsaves : b.SavesOnly) (halone : x.WritesAlone w b)
    : Kept x ⟨(b.begin w).2, waiting ++ (b.begin w).1, answered⟩ edited overtaken := by
  have hbegun := h.begin hsaves
  have hsent : x.Owns (b.dispatch w) ∧ (b.dispatch w).localDestroys = [] :=
    ⟨h.valid.owns_dispatch hproper halone, Handle.localDestroys_of_savesOnly hsaves⟩
  refine ⟨hbegun.valid, hbegun.accepting, h.underway.begin hsent, ?_, ?_, hbegun.unsaved,
    hbegun.hasValue, hbegun.changed, hbegun.base, ?_⟩
  . intro op hop
    dsimp only at hop
    rw [← List.append_assoc, Handle.ops_append] at hop
    rcases List.mem_append.1 hop with hop | hop
    . exact h.noDelete op hop
    . cases Handle.due_of_mem_ops_begin hsaves hop with
      | delete hdestroy _ => cases hdestroy
      | put _ _ | patch _ _ => rfl
  . dsimp only
    rw [Handle.entityIn_begin_of_savesOnly h.valid hsaves, Handle.stored_begin h.valid,
      Handle.ops_append]
    rintro (hpersisted | ⟨op, hop, hpatch⟩ | hanswered)
    . exact h.stored (.inl hpersisted)
    . rcases List.mem_append.1 hop with hop | hop
      . exact h.stored (.inr (.inl ⟨op, hop, hpatch⟩))
      . cases Handle.due_of_mem_ops_begin hsaves hop with
        | delete hdestroy _ => cases hdestroy
        | put _ _ => cases hpatch
        | patch _ hpersisted => exact h.stored (.inl hpersisted)
    . exact h.stored (.inr (.inr hanswered))
  . intro p hedited hclean
    have hsettled := hbegun.settled p hedited hclean
    have hkeeps : ∀ op ∈ x.ops (b.begin w).1, op.written? p = none := by
      intro op hop
      apply h.written?_of_mem_ops_begin hsaves hedited _ hop
      unfold Handle.isChanged at hclean ⊢
      rw [← Handle.entityIn_begin_of_savesOnly h.valid hsaves]
      exact hclean
    dsimp only at hsettled ⊢
    rw [Handle.ops_append, WriteOp.leave_append, WriteOp.leave_of_forall_eq_none p hkeeps]
    exact hsettled

theorem isSome_overlay {stored : Option Record} {op : WriteOp} (hdelete : op.isDelete = false)
    (h : Adapter.isPut op = true ∨ stored.isSome = true)
    : (Adapter.overlay stored op).isSome = true := by
  cases op with
  | put record => rfl
  | patch record =>
    rcases h with h | h
    . cases h
    . unfold Adapter.overlay
      rw [Option.isSome_map]
      exact h
  | delete typeName id => cases hdelete

theorem Kept.apply {c : PendingWrite} (h : Kept x ⟨w, c :: waiting, answered⟩ edited overtaken)
    : Kept x ⟨(c.apply w).2, waiting, answered ++ [(c.apply w).1]⟩ edited overtaken := by
  have hvalid : x.Valid w := h.valid
  have howns : x.Owns c.dispatch := (h.underway.sent_waiting List.mem_cons_self).1
  have hanswer : c.answer = none := h.underway.noAnswer c List.mem_cons_self
  have hcases := Handle.apply_cases hvalid h.accepting howns hanswer (by
    intro op hwaiting hput
    apply h.stored (.inr (.inl ⟨op, ?_, hput⟩))
    dsimp only
    rw [Handle.ops_cons, hwaiting]
    exact List.mem_cons_self)
  have hop : (x.standing (c.apply w).1).op? = (x.standing c).op? := by
    rcases hcases with ⟨hidle, hidle', _⟩ | ⟨op, hwaiting, haccepted, _⟩
    . rw [hidle, hidle']
    . rw [hwaiting, haccepted]
      rfl
  have hops : x.ops (answered ++ [(c.apply w).1] ++ waiting)
      = x.ops (answered ++ c :: waiting) := by
    rw [List.append_assoc, List.singleton_append, Handle.ops_append, Handle.ops_append,
      Handle.ops_cons, Handle.ops_cons, hop]
  -- The operation that waited is as good as done: it makes of the stored part what it was going to.
  have hpart : ∀ p, x.stored? (c.apply w).2 p
      = WriteOp.leave p (x.standing c).op?.toList (x.stored? w p) := by
    intro p
    unfold Handle.stored?
    rcases hcases with ⟨hidle, _, hsame⟩ | ⟨op, hwaiting, _, hoverlay, hfit⟩
    . rw [hidle, hsame]
      rfl
    . rw [hwaiting, hoverlay, WriteOp.part?_overlay p hfit]
      rfl
  have hunderway := @PendingWrite.Underway.apply _ answered [] waiting w c h.underway
  refine ⟨hvalid.apply, h.accepting.of_sameSettings (Handle.sameSettings_apply hvalid), hunderway, ?_,
    ?_, h.unsaved, h.hasValue, h.changed, ?_, ?_⟩
  . intro op hop
    dsimp only at hop
    rw [hops] at hop
    exact h.noDelete op hop
  . intro hneeded
    have hold : (x.standing c).op? = none → (x.stored w).isSome = true := by
      intro hnone
      apply h.stored
      dsimp only at hneeded ⊢
      rw [Handle.ops_append, Handle.ops_cons, hop, hnone] at hneeded
      rw [Handle.ops_cons, hnone]
      simpa [Handle.ops, Handle.entityIn_apply] using hneeded
    rcases hcases with ⟨hidle, _, hsame⟩ | ⟨op, hwaiting, _, hoverlay, hfit⟩
    . rw [hsame]
      apply hold
      rw [hidle]
      rfl
    . rw [hoverlay]
      refine isSome_overlay (h.noDelete op ?_) hfit
      dsimp only
      rw [Handle.ops_append, Handle.ops_cons, hwaiting]
      exact List.mem_append_right _ List.mem_cons_self
  . intro p
    obtain ⟨value, hvalue⟩ := h.base p
    refine ⟨value, ?_⟩
    dsimp only at hvalue ⊢
    rw [hpart, hvalue, Handle.ops_append, WriteOp.leave_append, Handle.ops_cons, hop]
    simp [Handle.ops]
  . intro p hedited hclean
    have hsettled := h.settled p hedited hclean
    dsimp only at hsettled ⊢
    rw [Handle.ops_cons, WriteOp.leave_append] at hsettled
    rw [hpart]
    exact hsettled

theorem accepting_complete (haccepting : x.Accepting w) (c : PendingWrite)
    : x.Accepting (c.complete w) := by
  apply haccepting.of_sameSettings
  unfold World.adapter
  rw [Handle.frame_complete.1]
  exact ⟨rfl, rfl, rfl⟩

theorem Kept.complete_of_idle {c : PendingWrite}
    (h : Kept x ⟨w, waiting, c :: answered⟩ edited overtaken) (hidle : x.standing c = .idle)
    : Kept x ⟨c.complete w, waiting, answered⟩ edited overtaken
        ∧
      x.entityIn (c.complete w) = x.entityIn w := by
  have hvalid : x.Valid w := h.valid
  obtain ⟨howns, hlocal⟩ := h.underway.sent_answered List.mem_cons_self
  have hanswer := h.underway.hasAnswer c List.mem_cons_self
  have hops : x.ops (c :: answered) = x.ops answered := by
    rw [Handle.ops_cons, hidle]
    rfl
  have hentity : x.entityIn (c.complete w) = x.entityIn w := by
    rcases Handle.complete_of_idle hvalid howns hanswer hidle with hsame | ⟨hmem, _⟩
    . exact hsame
    . rw [hlocal] at hmem
      cases hmem
  have hunderway := @PendingWrite.Underway.complete _ waiting [] answered c h.underway
  have hdropped : Kept x ⟨w, waiting, answered⟩ edited overtaken := by
    obtain ⟨_, haccepting, _, hdelete, hstored, hunsaved, hvalue, hchanged, hbase, hsettled⟩ := h
    dsimp only at *
    rw [hops] at hstored hbase
    rw [Handle.ops_append, hops, ← Handle.ops_append] at hdelete
    exact ⟨hvalid, haccepting, hunderway, hdelete, hstored, hunsaved, hvalue, hchanged, hbase,
      hsettled⟩
  refine ⟨?_, hentity⟩
  apply hdropped.of_same_parts (hvalid.complete howns hanswer) (accepting_complete h.accepting c)
    Handle.stored_complete
  . rw [hentity]
  . intro p
    unfold Handle.current? Handle.isChanged
    rw [hentity]
    exact ⟨rfl, rfl⟩

theorem entity_complete_of_accepted {c : PendingWrite} {op : WriteOp} (hvalid : x.Valid w)
    (howns : x.Owns c.dispatch) (haccepted : x.standing c = .accepted op)
    (hdelete : op.isDelete = false)
    : (x.entityIn (c.complete w)).persisted = true
        ∧
      x.current? (c.complete w) = x.current? w
        ∧
      ∀ p, x.isChanged (c.complete w) p = true
        ↔
      x.isChanged w p = true
        ∧
      PartValue.agree (x.current? w p) (op.written? p).join = false := by
  unfold Handle.isChanged Handle.current?
  rw [Handle.complete_of_accepted hvalid howns haccepted]
  have hchanged : ∀ p, (Dispatch.noted (x.entityIn w) op).isChanged p = true
      ↔
    (x.entityIn w).isChanged p = true
      ∧
    PartValue.agree ((x.entityIn w).toRecord.part? p) (op.written? p).join = false := by
    intro p
    rw [Dispatch.isChanged_noted hdelete, Bool.and_eq_true, Bool.not_eq_true']
  cases op with
  | put record => exact ⟨rfl, rfl, hchanged⟩
  | patch record => exact ⟨rfl, rfl, hchanged⟩
  | delete typeName id => cases hdelete

theorem agree_of_isSome {a b : Option PartValue} (ha : a.isSome = true)
    (h : PartValue.agree a b = true) : b.isSome = true := by
  cases a with
  | none => cases ha
  | some _ =>
    cases b with
    | none => cases h
    | some _ => rfl

-- The part stops to count as changed when it has the value that was sent. It is the value that will be
-- stored, unless an operation that follows writes the part once more.
theorem Kept.settled_of_accepted {c : PendingWrite} {op : WriteOp}
    (h : Kept x ⟨w, waiting, c :: answered⟩ edited overtaken) (haccepted : x.standing c = .accepted op)
    {p : Part} (hedited : edited p)
    (hagree : PartValue.agree (x.current? w p) (op.written? p).join = true)
    : PartValue.agree (x.current? w p)
          (WriteOp.leave p (x.ops waiting) (x.stored? w p)) = true
        ↔
      ¬Overtakes x ⟨w, waiting, answered⟩ p := by
  obtain ⟨sent, hsent⟩ := Option.isSome_iff_exists.1 (agree_of_isSome (h.hasValue p hedited) hagree)
  obtain ⟨value, hvalue⟩ := h.base p
  dsimp only at hvalue
  rw [Handle.ops_cons, haccepted] at hvalue
  have hstored : x.stored? w p = WriteOp.leave p (x.ops answered) ((op.written? p).getD value) :=
    hvalue
  rw [Option.join_eq_some_iff.1 hsent, Option.getD_some] at hstored
  rw [hstored, ← WriteOp.leave_append, ← Handle.ops_append, WriteOp.leave_eq_getD]
  unfold Overtakes
  dsimp only
  cases WriteOp.lastWritten? p (x.ops (answered ++ waiting)) with
  | none =>
    rw [hsent] at hagree
    simpa using hagree
  | some last => simp

theorem Kept.complete_of_accepted {c : PendingWrite} {op : WriteOp}
    (h : Kept x ⟨w, waiting, c :: answered⟩ edited overtaken) (haccepted : x.standing c = .accepted op)
    : Kept x ⟨c.complete w, waiting, answered⟩ edited fun p =>
        if x.isChanged w p = true ∧ x.isChanged (c.complete w) p = false then
          Overtakes x ⟨c.complete w, waiting, answered⟩ p
        else
          overtaken p := by
  have hvalid : x.Valid w := h.valid
  have howns := (h.underway.sent_answered List.mem_cons_self).1
  have hanswer := h.underway.hasAnswer c List.mem_cons_self
  have hops : x.ops (c :: answered) = op :: x.ops answered := by
    rw [Handle.ops_cons, haccepted]
    rfl
  have hdelete : op.isDelete = false := by
    apply h.noDelete
    dsimp only
    rw [Handle.ops_append, hops]
    exact List.mem_append_left _ List.mem_cons_self
  obtain ⟨hpersisted, hcurrent, hchanged⟩ :=
    entity_complete_of_accepted hvalid howns haccepted hdelete
  have hstored : x.stored? (c.complete w) = x.stored? w := by
    unfold Handle.stored?
    rw [Handle.stored_complete]
  have hunderway := @PendingWrite.Underway.complete _ waiting [] answered c h.underway
  refine ⟨hvalid.complete howns hanswer, accepting_complete h.accepting c, hunderway, ?_, ?_, ?_, ?_,
    ?_, ?_, ?_⟩
  . intro op' hop'
    apply h.noDelete
    dsimp only at hop' ⊢
    rw [List.cons_append, Handle.ops_cons]
    exact List.mem_append_right _ hop'
  . intro _
    dsimp only
    rw [Handle.stored_complete]
    apply h.stored
    dsimp only
    rw [hops]
    exact .inr (.inr (List.cons_ne_nil _ _))
  . intro hunsaved
    dsimp only at hunsaved
    rw [hpersisted] at hunsaved
    cases hunsaved
  . dsimp only
    rw [hcurrent]
    exact h.hasValue
  . intro p hp
    exact h.changed p ((hchanged p).1 hp).1
  . intro p
    obtain ⟨value, hvalue⟩ := h.base p
    dsimp only at hvalue ⊢
    rw [hops] at hvalue
    rw [hstored]
    exact ⟨(op.written? p).getD value, hvalue⟩
  . intro p hedited hclean
    dsimp only at hclean ⊢
    rw [hcurrent, hstored]
    cases hold : x.isChanged w p with
    | false =>
      rw [if_neg (by simp)]
      exact h.settled p hedited hold
    | true =>
      rw [if_pos ⟨rfl, hclean⟩]
      have hagree : PartValue.agree (x.current? w p) (op.written? p).join = true := by
        by_contra hne
        rw [Bool.not_eq_true] at hne
        rw [(hchanged p).2 ⟨hold, hne⟩] at hclean
        cases hclean
      have hsettled := h.settled_of_accepted haccepted hedited hagree
      unfold Overtakes at hsettled ⊢
      dsimp only at hsettled ⊢
      rw [hcurrent]
      exact hsettled

theorem Kept.complete {c : PendingWrite} (h : Kept x ⟨w, waiting, c :: answered⟩ edited overtaken)
    : Kept x ⟨c.complete w, waiting, answered⟩ edited fun p =>
        if x.isChanged w p = true ∧ x.isChanged (c.complete w) p = false then
          Overtakes x ⟨c.complete w, waiting, answered⟩ p
        else
          overtaken p := by
  have hanswer := h.underway.hasAnswer c List.mem_cons_self
  rcases Handle.not_waiting_of_answer (x := x) hanswer with hidle | ⟨op, haccepted⟩
  . obtain ⟨hkept, hentity⟩ := h.complete_of_idle hidle
    rw [overtaken_eq ⟨w, waiting, c :: answered⟩ ⟨c.complete w, waiting, answered⟩]
    . exact hkept
    . intro p hp
      unfold Handle.isChanged at hp ⊢
      dsimp only
      rw [hentity]
      exact hp
  . exact h.complete_of_accepted haccepted

theorem Kept.record {s s' : EditSession} (h : Kept x s' edited overtaken)
    (hstill : ∀ p, x.isChanged s.world p = true → x.isChanged s'.world p = true)
    : Kept x s' (fun p => edited p ∨ x.isChanged s'.world p = true) fun p =>
        if x.isChanged s.world p = true ∧ x.isChanged s'.world p = false then
          Overtakes x s' p
        else
          overtaken p := by
  rw [h.edited_eq, overtaken_eq s s' hstill]
  exact h

theorem Kept.tryModify (h : Kept x ⟨w, waiting, answered⟩ edited overtaken)
    {f : Entity → Except StoreError Entity} {part : Part}
    (hf : ∀ e, f (x.entityIn w) = .ok e →
      e = x.entityIn w ∨ Entity.Edited (x.entityIn w) e part)
    : Kept x ⟨(w.tryModify x.entity f).2, waiting, answered⟩
        (fun p => edited p ∨ x.isChanged (w.tryModify x.entity f).2 p = true) fun p =>
          if x.isChanged w p = true ∧ x.isChanged (w.tryModify x.entity f).2 p = false then
            Overtakes x ⟨(w.tryModify x.entity f).2, waiting, answered⟩ p
          else
            overtaken p := by
  have hvalid : x.Valid w := h.valid
  unfold World.tryModify
  split
  . next e he =>
    have hentity := entityIn_modifyEntity hvalid e
    rcases hf e he with rfl | hedit
    . have hsame : Kept x ⟨w.modifyEntity x.entity fun _ => x.entityIn w, waiting, answered⟩
          edited overtaken := by
        apply h.of_same_parts
        . refine hvalid.of_sameObject rfl (World.size_modifyEntity w x.entity _) ?_
          rw [hentity]
          exact ⟨rfl, rfl⟩
        . exact ⟨h.accepting.online, h.accepting.accepted⟩
        . rfl
        . rw [hentity]
        . intro p
          unfold Handle.current? Handle.isChanged
          rw [hentity]
          exact ⟨rfl, rfl⟩
      apply hsame.record (s := ⟨w, waiting, answered⟩)
      intro p hp
      unfold Handle.isChanged at hp ⊢
      dsimp only
      rw [hentity]
      exact hp
    . have hedited := h.edit hedit
      dsimp only at hedited ⊢
      rw [overtaken_eq ⟨w, waiting, answered⟩
        ⟨w.modifyEntity x.entity fun _ => e, waiting, answered⟩]
      . exact hedited
      . intro p hp
        unfold Handle.isChanged at hp ⊢
        dsimp only
        rw [hentity]
        exact hedit.still_changed hp
  . exact h.record (s := ⟨w, waiting, answered⟩) fun _ hp => hp

theorem Kept.step {s s' : EditSession} (h : Kept x s edited overtaken) (hstep : EditStep x s s')
    : Kept x s' (fun p => edited p ∨ x.isChanged s'.world p = true) fun p =>
        if x.isChanged s.world p = true ∧ x.isChanged s'.world p = false then
          Overtakes x s' p
        else
          overtaken p := by
  cases hstep with
  | set name v => exact h.tryModify fun e he => Entity.edited_of_set he
  | setRelatedId name id => exact h.tryModify fun e he => Entity.edited_of_setRelatedId he
  | save hsave halone =>
    have hsaves := Batch.savesOnly_save hsave
    have hkept := h.save ((Batch.proper_empty _ _).save hsave) hsaves halone
    apply hkept.record
    intro p hp
    unfold Handle.isChanged at hp ⊢
    dsimp only at hp ⊢
    rw [Handle.entityIn_begin_of_savesOnly h.valid hsaves]
    exact hp
  | apply => exact h.apply.record fun _ hp => hp
  | complete =>
    rw [h.complete.edited_eq]
    exact h.complete
  | elsewhere helse =>
    apply (h.elsewhere helse).record
    intro p hp
    obtain ⟨links, hasMany, hentity⟩ := helse.entity
    unfold Handle.isChanged at hp ⊢
    dsimp only at hp ⊢
    rw [hentity]
    cases p <;> exact hp

/-- A world in which an entity has just been created or read. -/
structure Start (x : Handle) (w : World) : Prop where
  valid : x.Valid w
  accepting : x.Accepting w
  hasValue : ∀ p, x.isChanged w p = true → (x.current? w p).isSome = true
  stored : (x.entityIn w).persisted = true → (x.stored w).isSome = true

theorem Start.kept (h : Start x w)
    : Kept x ⟨w, [], []⟩ (fun p => x.isChanged w p = true) fun _ => False where
  valid := h.valid
  accepting := h.accepting
  underway := .nil
  noDelete := by simp [Handle.ops]
  stored := by
    rintro (hpersisted | ⟨op, hop, _⟩ | hanswered)
    . exact h.stored hpersisted
    . cases hop
    . exact absurd rfl hanswered
  unsaved _ p hp := hp
  hasValue := h.hasValue
  changed p hp := hp
  base p := ⟨x.stored? w p, rfl⟩
  settled p hp hclean := by
    dsimp only at hp hclean
    rw [hp] at hclean
    cases hclean

theorem Run.kept {s : EditSession} (hstart : Start x w) (hrun : Run x w s edited overtaken)
    : Kept x s edited overtaken := by
  induction hrun with
  | start => exact hstart.kept
  | step _ hstep ih => exact ih.step hstep

abbrev Steps (x : Handle) : EditSession → EditSession → Prop :=
  Relation.ReflTransGen (EditStep x)

/-- A part that was edited stays edited however a run goes on. -/
theorem Run.steps {s s' : EditSession} (hrun : Run x w s edited overtaken) (hsteps : Steps x s s')
    : ∃ edited' overtaken', Run x w s' edited' overtaken' ∧ ∀ p, edited p → edited' p := by
  induction hsteps with
  | refl => exact ⟨_, _, hrun, fun _ hp => hp⟩
  | tail _ hstep ih =>
    obtain ⟨_, _, hrun', hedited⟩ := ih
    exact ⟨_, _, hrun'.step hstep, fun p hp => .inl (hedited p hp)⟩

theorem steps_of_arrive (d : Dispatch) (single : Bool)
    : Steps x ⟨w, ⟨d, none⟩ :: waiting, []⟩ ⟨(w.arrive (.write d single)).2, waiting, []⟩ := by
  rw [PendingWrite.arrive_write]
  exact .tail (.single .apply) .complete

/-- A save that is started takes the steps of a session. If it ends at once, no other may be under
way. -/
theorem steps_of_save {e : EntityRef}
    (halone : ∀ b, (Batch.empty (w.entity e).store).save w e = .ok b → x.WritesAlone w b)
    (hfinished : (w.start (.save e)).1.isFinished = true → waiting = [] ∧ answered = [])
    : Steps x ⟨w, waiting, answered⟩
          ⟨(w.start (.save e)).2, waiting ++ (w.start (.save e)).1.writes, answered⟩
        ∧
      (w.start (.save e)).1.Sent := by
  have hsave := w.save_eq_saveBatch e
  have hsent := @EditStep.save x w waiting answered e _ hsave (halone _ hsave)
  rw [w.start_save e] at hfinished ⊢
  rcases w.execute_cases _ true with ⟨hwrites, hworld, hdone⟩ | ⟨c, hc, hends, hworld⟩
  . rw [hwrites, hworld]
    exact ⟨.single hsent, hdone⟩
  . obtain ⟨rfl, rfl⟩ := hfinished hends
    rw [hc] at hsent
    rw [Task.writes_of_isFinished hends, hworld]
    exact ⟨.tail (.tail (.single hsent) .apply) .complete, .inl hends⟩

theorem Steps.arrive {s : EditSession} {d : Dispatch} (h : Steps x s ⟨w, ⟨d, none⟩ :: waiting, []⟩)
    (single : Bool) : Steps x s ⟨(w.arrive (.write d single)).2, waiting, []⟩ :=
  h.trans (steps_of_arrive d single)

-- An entity that has no related objects is saved without any others. The call takes some time.
theorem Steps.save_alone {s : EditSession} (h : Steps x s ⟨w, waiting, answered⟩)
    (he : x.entity < w.entities.size) (hdestroyed : (x.entityIn w).destroyed = false)
    (hrelated : (x.entityIn w).knownRelated = [])
    (hcalls : (w.execute (.alone w x.entity) true).1.isFinished = false)
    : Steps x s
        ⟨(w.execute (.alone w x.entity) true).2,
          waiting ++ (w.execute (.alone w x.entity) true).1.writes, answered⟩ := by
  have hstart := World.start_save_of_knownRelated_eq_nil he hdestroyed hrelated
  have hsteps := @steps_of_save x w waiting answered x.entity
    (fun _ => Handle.writesAlone_save he hdestroyed hrelated) (by
      intro hends
      rw [hstart, hcalls] at hends
      cases hends)
  rw [hstart] at hsteps
  exact h.trans hsteps.1

/-- When no save is under way and the entity is not dirty, the stored form of a part that was ever
changed is that of its present value, unless a write overtook the part. -/
theorem stored_agrees_iff (hstart : Start x w)
    (hrun : Run x w ⟨w', [], []⟩ edited overtaken) (hdestroyed : (x.entityIn w').destroyed = false)
    (hdirty : (x.entityIn w').isDirty = false) (p : Part) (hedited : edited p)
    : PartValue.agree (x.current? w' p) (x.stored? w' p) = true ↔ ¬overtaken p :=
  (hrun.kept hstart).settled p hedited ((Entity.clean_of_isDirty_eq_false hdestroyed hdirty).2 p)

def chairStore : Store := ⟨0, .empty, {}⟩

def chairType : ObjectType :=
  (ObjectType.ofName "chair").addAttribute { name := "size", type := .integer }

/-- A chair that was read from its record. Calls take some time. -/
def chairWorld : World :=
  { World.empty with
    adapters := #[(Adapter.empty.withLatency 10).insert
      ((Record.ofId "chair" "c").withAttribute "size" (Value.int 0).toJson)]
    entities := #[{ Entity.bare chairStore chairType "c" true with
      attributes := Keyed.empty.insert "size" (.int 0) }] }

def chairHandle : Handle := ⟨0, 0, ⟨"chair", "c"⟩⟩

theorem start_chairWorld : Start chairHandle chairWorld := by
  refine ⟨⟨by decide, by decide, rfl, rfl, rfl, ?_⟩, ⟨rfl, by decide⟩, ?_, fun _ => rfl⟩
  . exact ((Adapter.Reached.empty.withLatency 10).insert _).wellKept
  . intro p hp
    cases p <;> cases hp

-- The size is changed once more while the first save is under way, and saved again.
theorem stored_agrees_of_later_edit
    : ∃ w edited overtaken,
        Start chairHandle chairWorld
          ∧
        Run chairHandle chairWorld ⟨w, [], []⟩ edited overtaken
          ∧
        (chairHandle.entityIn w).destroyed = false
          ∧
        (chairHandle.entityIn w).isDirty = false
          ∧
        edited (.attr "size")
          ∧
        (PartValue.agree (chairHandle.current? w (.attr "size"))
            (chairHandle.stored? w (.attr "size")) = true
          ↔
        ¬overtaken (.attr "size"))
          ∧
        ¬overtaken (.attr "size") := by
  have hset := Run.start.step (EditStep.set (x := chairHandle) (w := chairWorld) "size" (.int 1))
  have hstart : Steps chairHandle ⟨(chairWorld.set 0 "size" (.int 1)).2, [], []⟩ _ := .refl
  have hfirst := hstart.save_alone (by decide) rfl rfl rfl
  have hagain := Steps.arrive (hfirst.tail (.set "size" (.int 2))) true
  rw [PendingWrite.arrive_write_of_online rfl] at hagain
  have hsteps := Steps.arrive (hagain.save_alone (by decide) rfl rfl rfl) true
  rw [PendingWrite.arrive_write_of_online rfl] at hsteps
  obtain ⟨edited, overtaken, hrun, hedited⟩ := hset.steps hsteps
  have hsize : edited (.attr "size") := hedited _ (.inr rfl)
  have hiff := stored_agrees_iff start_chairWorld hrun rfl rfl (.attr "size") hsize
  exact ⟨_, _, _, start_chairWorld, hrun, rfl, rfl, hsize, hiff, hiff.1 rfl⟩

-- The first save takes its answer while the size is what it sent, but the second save is about to
-- store the size that was there in between.
theorem stored_disagrees_of_overtaken
    : ∃ w edited overtaken,
        Start chairHandle chairWorld
          ∧
        Run chairHandle chairWorld ⟨w, [], []⟩ edited overtaken
          ∧
        (chairHandle.entityIn w).persisted = true
          ∧
        (chairHandle.entityIn w).destroyed = false
          ∧
        (chairHandle.entityIn w).isDirty = false
          ∧
        edited (.attr "size")
          ∧
        PartValue.agree (chairHandle.current? w (.attr "size"))
            (chairHandle.stored? w (.attr "size")) = false := by
  have hset := Run.start.step (EditStep.set (x := chairHandle) (w := chairWorld) "size" (.int 1))
  have hstart : Steps chairHandle ⟨(chairWorld.set 0 "size" (.int 1)).2, [], []⟩ _ := .refl
  have hfirst := hstart.save_alone (by decide) rfl rfl rfl
  have hsecond := Steps.save_alone (hfirst.tail (.set "size" (.int 0))) (by decide) rfl rfl rfl
  have hanswer := Steps.arrive (hsecond.tail (.set "size" (.int 1))) true
  rw [PendingWrite.arrive_write_of_online rfl] at hanswer
  have hsteps := Steps.arrive hanswer true
  rw [PendingWrite.arrive_write_of_online rfl] at hsteps
  obtain ⟨edited, overtaken, hrun, hedited⟩ := hset.steps hsteps
  exact ⟨_, _, _, start_chairWorld, hrun, rfl, rfl, rfl, hedited _ (.inr rfl), rfl⟩

end EditSession

end ObjectStore
