import ObjectStore.Proofs.World.Loads

/-!
This module proves that following relationships ahead of time keeps a world coherent. The entities whose
relationships are followed are hidden: nobody else has them yet, so their foreign ids are still those
that they had when the calls were sent.
-/

namespace ObjectStore

namespace Branch

mutual

/-- The calls that are under way. -/
def calls : Branch → List BranchCall
  | calling call _ _ => [call]
  | descending branches => allCalls branches
  | finished | failed _ => []

def allCalls : List Branch → List BranchCall
  | [] => []
  | b :: bs => b.calls ++ allCalls bs

end

theorem mem_calls_ofBranches {branches : List Branch} {call : BranchCall}
    (h : call ∈ (ofBranches branches).calls) : call ∈ allCalls branches := by
  unfold ofBranches at h
  split at h
  . cases h
  . exact h

end Branch

theorem Reporting.hold_eq_ok {reporting : Reporting} {result : Except StoreError Branch}
    {branch : Branch} (h : reporting.hold result = .ok branch)
    : result = .ok branch ∨ branch.calls = [] := by
  unfold hold at h
  split at h
  . cases h
    exact .inr rfl
  . exact .inl h

/-- The owners of a call are hidden, and the call asks for what they point at. -/
structure BranchCall.Sound (w : World) (hidden : EntityRef → Prop) (call : BranchCall) : Prop where
  wellNamed : call.store.schema.WellNamed
  owner_lt : ∀ owner id, (owner, id) ∈ call.owners → owner < w.entities.size
  hidden : ∀ owner id, (owner, id) ∈ call.owners → hidden owner
  foreignId : ∀ owner id, (owner, id) ∈ call.owners →
    (w.entity owner).foreignId? call.relation = id
  foreignType : ∀ owner id, (owner, id) ∈ call.owners →
    ∃ r, (w.entity owner).objectType.belongsTo? call.relation = some r
      ∧
    call.foreignType.name = r.foreignType

theorem Adapter.getAll_eq_ok {a : Adapter} {typeName : String} {ids : List String}
    {records : List (Option Record)} (h : a.getAll typeName ids = .ok records)
    : records = ids.map fun id => (a.record? typeName id).map a.handOut := by
  rw [Adapter.getAll_eq] at h
  cases hchecked : a.checkOnline <;> rw [hchecked] at h <;> cases h
  rfl

namespace World

variable {ids links : EntityRef → String → Prop} {hidden : EntityRef → Prop} {w w' : World}
  {call : BranchCall} {objectType : ObjectType}

theorem Frame.soundCall (h : Frame ids links w w') (hids : ∀ e name, hidden e → ¬ids e name)
    (hcall : call.Sound w hidden) : call.Sound w' hidden := by
  constructor
  . exact hcall.wellNamed
  . intro owner id hmem
    exact Nat.lt_of_lt_of_le (hcall.owner_lt owner id hmem) h.entities_le
  . exact hcall.hidden
  . intro owner id hmem
    have hsame := h.foreignId owner (hcall.owner_lt owner id hmem) call.relation
      (hids owner call.relation (hcall.hidden owner id hmem))
    unfold Entity.foreignId?
    rw [hsame]
    exact hcall.foreignId owner id hmem
  . intro owner id hmem
    rw [(h.identity owner (hcall.owner_lt owner id hmem)).objectType]
    exact hcall.foreignType owner id hmem

/-- Some relationships were followed as far as it goes at once. -/
structure Followed {α : Type} (hidden : EntityRef → Prop) (calls : α → List BranchCall) (w : World)
    (result : Except StoreError α) (w' : World) : Prop where
  evolves : Evolves nowhere (fun e _ => hidden e) w w'
  sound : ∀ a, result = .ok a → ∀ call ∈ calls a, call.Sound w' hidden

theorem branchAnswer_eq_ok (h : w.Coherent) {records : List (Option Record)}
    (hanswer : w.branchAnswer call = .ok records) {id : String} {r : Record}
    (hmem : (id, some r) ∈ call.ids.zip records) : r.id = id := by
  unfold branchAnswer at hanswer
  split at hanswer
  . cases hanswer
    rw [List.zip_nil_right] at hmem
    cases hmem
  . rw [Adapter.getAll_eq_ok hanswer, ← List.map_prod_left_eq_zip] at hmem
    obtain ⟨id', _, heq⟩ := List.mem_map.1 hmem
    obtain ⟨rfl, hrecord⟩ := Prod.mk.inj heq
    obtain ⟨stored, hstored, rfl⟩ := Option.map_eq_some_iff.1 hrecord
    rw [Adapter.id_handOut]
    exact (h.wellKept _ _ _ stored hstored).2

theorem Coherent.hydrateFound (h : w.Coherent) (hstore : call.store.schema.WellNamed)
    {records : List (String × Option Record)} (hids : ∀ id r, (id, some r) ∈ records → r.id = id)
    : Evolves ids links w (w.hydrateFound call records).2
        ∧
      ∀ found, (w.hydrateFound call records).1 = .ok found → ∀ id t, (id, t) ∈ found →
        w.entities.size ≤ t ∧ (w.hydrateFound call records).2.Found call.foreignType id t := by
  induction records generalizing w with
  | nil =>
    refine ⟨h.evolves_refl, ?_⟩
    intro found hfound id t hmem
    cases hfound
    cases hmem
  | cons head rest ih =>
    have hids' : ∀ id r, (id, some r) ∈ rest → r.id = id :=
      fun id r hmem => hids id r (List.mem_cons_of_mem _ hmem)
    obtain ⟨id, _ | r⟩ := head
    . exact ih h hids'
    . have hid := hids id r List.mem_cons_self
      obtain ⟨hfirst, hfound⟩ : Evolves ids links w _ ∧ _ :=
        h.hydrate hstore call.foreignType r
      unfold World.hydrateFound
      cases heq : w.hydrate call.store call.foreignType r with | mk result w' =>
      rw [heq] at hfirst hfound
      cases result with
      | error err => exact ⟨hfirst, nofun⟩
      | ok t =>
        obtain ⟨hrest, hfound'⟩ := ih hfirst.coherent hids'
        dsimp only at hfound ⊢
        cases heq' : w'.hydrateFound call rest with | mk result' w'' =>
        rw [heq'] at hrest hfound'
        cases result' with
        | error err => exact ⟨hfirst.trans hrest, nofun⟩
        | ok found =>
          refine ⟨hfirst.trans hrest, ?_⟩
          intro found' heq'' id' t' hmem
          cases heq''
          rcases List.mem_cons.1 hmem with hmem | hmem
          . cases hmem
            obtain ⟨hle, hfound⟩ := hfound t rfl
            rw [hid] at hfound
            exact ⟨hle, hrest.toFrame.found hfound⟩
          . obtain ⟨hle, hfound⟩ := hfound' found rfl id' t' hmem
            exact ⟨Nat.le_trans hfirst.entities_le hle, hfound⟩

theorem Coherent.cachePreloaded (h : w.Coherent) (hcall : call.Sound w hidden) {owner : EntityRef}
    {id : Option String} (howner : (owner, id) ∈ call.owners) {found : List (String × EntityRef)}
    (hfound : ∀ id t, (id, t) ∈ found → w.Found call.foreignType id t)
    : Evolves nowhere (fun e _ => hidden e) w (w.modifyEntity owner fun entity =>
        entity.cachePreloaded call.relation (id.bind fun id => found.lookup id)) := by
  unfold Entity.cachePreloaded
  apply h.modifyEntity
  . split <;> exact ⟨rfl, rfl, rfl⟩
  . split
    . exact fun name => .inl ⟨rfl, rfl⟩
    intro name
    by_cases hname : name = call.relation
    . subst hname
      refine .inr ⟨hcall.hidden owner id howner, ?_, .inr rfl⟩
      intro link hlink
      unfold Entity.setLink at hlink
      rw [Keyed.get?_insert_self] at hlink
      cases hlink
      refine ⟨_, rfl, ?_⟩
      intro t ht
      obtain ⟨id', rfl, hlookup⟩ := Option.bind_eq_some_iff.1 ht
      obtain ⟨before, after, rfl, _⟩ := List.lookup_eq_some_iff.1 hlookup
      have ht := hfound id' t (List.mem_append_right before List.mem_cons_self)
      obtain ⟨r, hr, htype⟩ := hcall.foreignType owner _ howner
      refine ⟨ht.lt, ?_, r, hr, ?_⟩
      . rw [ht.id]
        exact hcall.foreignId owner _ howner
      . unfold Entity.typeName
        rw [ht.objectType, htype]
    . left
      exact ⟨by simp [Entity.setLink, Keyed.get?_insert, hname], rfl⟩

/-- What was found is entered where it was looked for. -/
theorem Coherent.cacheFound (h : w.Coherent) (hcall : call.Sound w hidden)
    {found : List (String × EntityRef)}
    (hfound : ∀ id t, (id, t) ∈ found → w.Found call.foreignType id t)
    : Evolves nowhere (fun e _ => hidden e) w (w.cacheFound call found) := by
  suffices howners : ∀ owners : List (EntityRef × Option String), (∀ p ∈ owners, p ∈ call.owners) →
      Evolves nowhere (fun e _ => hidden e) w
        (owners.foldl (fun w p => w.modifyEntity p.1 fun entity =>
          entity.cachePreloaded call.relation (p.2.bind fun id => found.lookup id)) w) from
    howners call.owners fun _ hp => hp
  intro owners
  induction owners generalizing w with
  | nil => exact fun _ => h.evolves_refl
  | cons p rest ih =>
    intro hmem
    obtain ⟨owner, id⟩ := p
    have howner := hmem _ List.mem_cons_self
    have hcached : Evolves nowhere (fun e _ => hidden e) w (w.modifyEntity owner fun entity =>
        entity.cachePreloaded call.relation (id.bind fun id => found.lookup id)) :=
      h.cachePreloaded hcall howner hfound
    apply hcached.trans
    apply ih hcached.coherent (hcached.toFrame.soundCall (fun e name _ => not_nowhere e name) hcall)
    . intro id t hmem
      exact hcached.toFrame.found (hfound id t hmem)
    . intro p hp
      exact hmem p (List.mem_cons_of_mem _ hp)

theorem sound_branchCall {store : Store} (hstore : store.schema.WellNamed)
    {owners : List EntityRef} (howners : ∀ e ∈ owners, hidden e ∧ ∃ id, w.Found objectType id e)
    {name : String} (hcall : w.branchCall store objectType owners name = .ok call)
    : call.Sound w hidden := by
  unfold branchCall at hcall
  split at hcall
  . cases hcall
  . next r hr =>
    obtain ⟨foreignType, htype, hcall⟩ := bind_eq_ok.1 hcall
    cases hcall
    have howner : ∀ owner id, (owner, id) ∈ owners.filterMap (fun e =>
        ((w.entity e).preloadTarget? name).map ((e, ·))) →
          owner ∈ owners ∧ (w.entity owner).foreignId? name = id := by
      intro owner id hmem
      obtain ⟨owner', howner', htarget⟩ := List.mem_filterMap.1 hmem
      obtain ⟨id', hid, heq⟩ := Option.map_eq_some_iff.1 htarget
      cases heq
      unfold Entity.preloadTarget? at hid
      split at hid
      . cases hid
      . cases hid
        exact ⟨howner', rfl⟩
    constructor
    . exact hstore
    . intro owner id hmem
      obtain ⟨_, _, hfound⟩ := howners owner (howner owner id hmem).1
      exact hfound.lt
    . intro owner id hmem
      exact (howners owner (howner owner id hmem).1).1
    . intro owner id hmem
      exact (howner owner id hmem).2
    . intro owner id hmem
      obtain ⟨_, _, hfound⟩ := howners owner (howner owner id hmem).1
      refine ⟨r, ?_, hstore.name_of_objectType htype⟩
      rw [hfound.objectType]
      exact hr

/-- The step from one level to the next: the records become hidden entities, which the owners are
linked to, and whose relationships are followed in turn. -/
theorem Coherent.arriveBranch_node (h : w.Coherent) (hcall : call.Sound w hidden)
    (hnew : ∀ e, w.entities.size ≤ e → hidden e) (children : List (String × PreloadTree))
    (hchildren : ∀ {w' : World}, w'.Coherent → (∀ e, w'.entities.size ≤ e → hidden e) →
      ∀ {owners : List EntityRef},
        (∀ e ∈ owners, hidden e ∧ ∃ id, w'.Found call.foreignType id e) →
        Followed hidden Branch.allCalls w'
          (w'.startBranches call.store call.foreignType owners (.ofSize children.length) children).1
          (w'.startBranches call.store call.foreignType owners (.ofSize children.length) children).2)
    : Followed hidden Branch.calls w (w.arriveBranch call (.node children)).1
        (w.arriveBranch call (.node children)).2 := by
  unfold World.arriveBranch
  cases hanswer : w.branchAnswer call with
  | error err => exact ⟨h.evolves_refl, nofun⟩
  | ok records =>
    obtain ⟨hhydrated, hfound⟩ : Evolves nowhere (fun e _ => hidden e) w _ ∧ _ :=
      h.hydrateFound hcall.wellNamed fun id r hmem => branchAnswer_eq_ok h hanswer hmem
    dsimp only
    cases heq : w.hydrateFound call (call.ids.zip records) with | mk result w' =>
    rw [heq] at hhydrated hfound
    cases result with
    | error err => exact ⟨hhydrated, nofun⟩
    | ok found =>
      dsimp only at hfound ⊢
      have hcached := hhydrated.coherent.cacheFound
        (hhydrated.toFrame.soundCall (fun e name _ => not_nowhere e name) hcall)
        fun id t hmem => (hfound found rfl id t hmem).2
      have hevolves := hhydrated.trans hcached
      split
      . exact ⟨hevolves, fun branch heq call hmem => by cases heq; cases hmem⟩
      . have howners : ∀ e ∈ call.ids.filterMap (fun id => found.lookup id),
            hidden e ∧ ∃ id, (w'.cacheFound call found).Found call.foreignType id e := by
          intro e he
          obtain ⟨id, _, hlookup⟩ := List.mem_filterMap.1 he
          obtain ⟨before, after, rfl, _⟩ := List.lookup_eq_some_iff.1 hlookup
          obtain ⟨hle, hmem⟩ := hfound _ rfl id e (List.mem_append_right before List.mem_cons_self)
          exact ⟨hnew e hle, id, hcached.toFrame.found hmem⟩
        have hbelow := hchildren hevolves.coherent
          (fun e he => hnew e (Nat.le_trans hevolves.entities_le he)) howners
        cases heq' : (w'.cacheFound call found).startBranches call.store call.foreignType
          (call.ids.filterMap fun id => found.lookup id) (.ofSize children.length) children with
          | mk result' w'' =>
        rw [heq'] at hbelow
        cases result' with
        | error err => exact ⟨hevolves.trans hbelow.evolves, nofun⟩
        | ok branches =>
          refine ⟨hevolves.trans hbelow.evolves, ?_⟩
          intro branch hbranch call' hmem
          cases hbranch
          exact hbelow.sound branches rfl call' (Branch.mem_calls_ofBranches hmem)

/-- The first step of one branch. -/
def startBranch (w : World) (store : Store) (objectType : ObjectType) (owners : List EntityRef)
    (name : String) (below : PreloadTree) : Except StoreError Branch × World :=
  match w.branchCall store objectType owners name with
  | .error e => (.error e, w)
  | .ok call =>
    if call.ids.isEmpty then
      w.arriveBranch call below
    else
      match w.send store.adapter (.getAll call.foreignType.name call.ids) with
      | (none, w) => w.arriveBranch call below
      | (some deadline, w) => (.ok (.calling call deadline below), w)

theorem startBranches_cons (w : World) (store : Store) (objectType : ObjectType)
    (owners : List EntityRef) (reporting : Reporting) (name : String) (below : PreloadTree)
    (rest : List (String × PreloadTree))
    : w.startBranches store objectType owners reporting ((name, below) :: rest)
        =
      match reporting.hold (w.startBranch store objectType owners name below).1 with
      | .error e => (.error e, (w.startBranch store objectType owners name below).2)
      | .ok branch =>
        match (w.startBranch store objectType owners name below).2.startBranches store objectType
          owners (reporting.next branch) rest with
        | (.error e, w) => (.error e, w)
        | (.ok branches, w) => (.ok (branch :: branches), w) := by
  rw [World.startBranches]
  rfl

theorem Coherent.startBranch (h : w.Coherent) {store : Store} (hstore : store.schema.WellNamed)
    {owners : List EntityRef} (howners : ∀ e ∈ owners, hidden e ∧ ∃ id, w.Found objectType id e)
    (hnew : ∀ e, w.entities.size ≤ e → hidden e) (name : String) (below : PreloadTree)
    (hbelow : ∀ {w' : World}, w'.Coherent → (∀ e, w'.entities.size ≤ e → hidden e) →
      ∀ {call : BranchCall}, call.Sound w' hidden →
        Followed hidden Branch.calls w' (w'.arriveBranch call below).1
          (w'.arriveBranch call below).2)
    : Followed hidden Branch.calls w (w.startBranch store objectType owners name below).1
        (w.startBranch store objectType owners name below).2 := by
  unfold World.startBranch
  cases heq : w.branchCall store objectType owners name with
  | error err => exact ⟨h.evolves_refl, nofun⟩
  | ok call =>
    have hcall := sound_branchCall hstore howners heq
    dsimp only
    split
    . exact hbelow h hnew hcall
    . have hsent : Evolves nowhere (fun e _ => hidden e) w _ :=
        h.send store.adapter (.getAll call.foreignType.name call.ids)
      have hcall' := hsent.toFrame.soundCall (fun e name _ => not_nowhere e name) hcall
      have hnew' : ∀ e, (w.send store.adapter
          (.getAll call.foreignType.name call.ids)).2.entities.size ≤ e → hidden e :=
        fun e he => hnew e (Nat.le_trans hsent.entities_le he)
      cases hsend : w.send store.adapter (.getAll call.foreignType.name call.ids) with
        | mk arrival w' =>
      rw [hsend] at hsent hcall' hnew'
      cases arrival with
      | none =>
        have harrived := hbelow hsent.coherent hnew' hcall'
        exact ⟨hsent.trans harrived.evolves, harrived.sound⟩
      | some deadline =>
        refine ⟨hsent, ?_⟩
        intro branch hbranch call' hmem
        cases hbranch
        rw [Branch.calls, List.mem_singleton] at hmem
        rw [hmem]
        exact hcall'

theorem Followed.cons {w' w'' : World} {reporting : Reporting} {result : Except StoreError Branch}
    {branch : Branch} {results : Except StoreError (List Branch)}
    (hfirst : Followed hidden Branch.calls w result w') (hhold : reporting.hold result = .ok branch)
    (hrest : Followed hidden Branch.allCalls w' results w'')
    : Followed hidden Branch.allCalls w (results.map (branch :: ·)) w'' := by
  refine ⟨hfirst.evolves.trans hrest.evolves, ?_⟩
  intro branches hbranches call hmem
  cases results with
  | error err => cases hbranches
  | ok rest =>
    cases hbranches
    rw [Branch.allCalls, List.mem_append] at hmem
    rcases hmem with hmem | hmem
    . rcases Reporting.hold_eq_ok hhold with hresult | hnone
      . exact hrest.evolves.toFrame.soundCall (fun e name _ => not_nowhere e name)
          (hfirst.sound branch hresult call hmem)
      . rw [hnone] at hmem
        cases hmem
    . exact hrest.sound rest rfl call hmem

theorem Coherent.startBranches_cons (h : w.Coherent) {store : Store}
    (hstore : store.schema.WellNamed) {owners : List EntityRef}
    (howners : ∀ e ∈ owners, hidden e ∧ ∃ id, w.Found objectType id e)
    (hnew : ∀ e, w.entities.size ≤ e → hidden e) (reporting : Reporting) (name : String)
    (below : PreloadTree) (rest : List (String × PreloadTree))
    (hbelow : ∀ {w' : World}, w'.Coherent → (∀ e, w'.entities.size ≤ e → hidden e) →
      ∀ {call : BranchCall}, call.Sound w' hidden →
        Followed hidden Branch.calls w' (w'.arriveBranch call below).1
          (w'.arriveBranch call below).2)
    (hrest : ∀ {w' : World}, w'.Coherent → (∀ e, w'.entities.size ≤ e → hidden e) →
      (∀ e ∈ owners, hidden e ∧ ∃ id, w'.Found objectType id e) → ∀ reporting,
        Followed hidden Branch.allCalls w' (w'.startBranches store objectType owners reporting rest).1
          (w'.startBranches store objectType owners reporting rest).2)
    : Followed hidden Branch.allCalls w
        (w.startBranches store objectType owners reporting ((name, below) :: rest)).1
        (w.startBranches store objectType owners reporting ((name, below) :: rest)).2 := by
  have hfirst := h.startBranch hstore howners hnew name below hbelow
  rw [World.startBranches_cons]
  cases hhold : reporting.hold (w.startBranch store objectType owners name below).1 with
  | error err => exact ⟨hfirst.evolves, nofun⟩
  | ok branch =>
    have hothers := hrest hfirst.evolves.coherent
      (fun e he => hnew e (Nat.le_trans hfirst.evolves.entities_le he))
      (fun e he => ⟨(howners e he).1, (howners e he).2.imp fun _ => hfirst.evolves.toFrame.found⟩)
      (reporting.next branch)
    have hall := hfirst.cons hhold hothers
    dsimp only
    cases heq : (w.startBranch store objectType owners name below).2.startBranches store objectType
      owners (reporting.next branch) rest with | mk results w' =>
    rw [heq] at hall
    cases results <;> exact hall

mutual

theorem Coherent.arriveBranch {w : World} {call : BranchCall} (h : w.Coherent)
    (hcall : call.Sound w hidden) (hnew : ∀ e, w.entities.size ≤ e → hidden e) (tree : PreloadTree)
    : Followed hidden Branch.calls w (w.arriveBranch call tree).1 (w.arriveBranch call tree).2 := by
  cases tree with
  | node children =>
    apply h.arriveBranch_node hcall hnew
    intro w' h' hnew' owners howners
    exact h'.startBranches hcall.wellNamed howners hnew' _ children

theorem Coherent.startBranches {w : World} {objectType : ObjectType} {store : Store}
    {owners : List EntityRef} (h : w.Coherent) (hstore : store.schema.WellNamed)
    (howners : ∀ e ∈ owners, hidden e ∧ ∃ id, w.Found objectType id e)
    (hnew : ∀ e, w.entities.size ≤ e → hidden e) (reporting : Reporting)
    (children : List (String × PreloadTree))
    : Followed hidden Branch.allCalls w
        (w.startBranches store objectType owners reporting children).1
        (w.startBranches store objectType owners reporting children).2 := by
  cases children with
  | nil =>
    rw [World.startBranches]
    refine ⟨h.evolves_refl, ?_⟩
    intro branches hbranches call hmem
    cases hbranches
    cases hmem
  | cons child rest =>
    obtain ⟨name, below⟩ := child
    apply h.startBranches_cons hstore howners hnew
    . intro w' h' hnew' call hcall
      exact h'.arriveBranch hcall hnew' below
    . intro w' h' hnew' howners' reporting'
      exact h'.startBranches hstore howners' hnew' reporting' rest

end

mutual

theorem Coherent.pollBranch {w : World} (h : w.Coherent)
    (hnew : ∀ e, w.entities.size ≤ e → hidden e) (branch : Branch)
    (hcalls : ∀ call ∈ branch.calls, call.Sound w hidden)
    : Followed hidden Branch.calls w (w.pollBranch branch).1 (w.pollBranch branch).2 := by
  cases branch with
  | calling call deadline below =>
    rw [World.pollBranch]
    split
    . exact h.arriveBranch (hcalls call List.mem_cons_self) hnew below
    . refine ⟨h.evolves_refl, ?_⟩
      intro branch hbranch
      cases hbranch
      exact hcalls
  | descending branches =>
    have hpolled := h.pollBranches hnew (.ofSize branches.length) branches hcalls
    rw [World.pollBranch]
    cases heq : w.pollBranches (.ofSize branches.length) branches with | mk results w' =>
    rw [heq] at hpolled
    cases results with
    | error err => exact ⟨hpolled.evolves, nofun⟩
    | ok branches' =>
      refine ⟨hpolled.evolves, ?_⟩
      intro branch hbranch call hmem
      cases hbranch
      exact hpolled.sound branches' rfl call (Branch.mem_calls_ofBranches hmem)
  | finished =>
    rw [World.pollBranch]
    refine ⟨h.evolves_refl, ?_⟩
    intro branch hbranch
    cases hbranch
    exact hcalls
  | failed err =>
    rw [World.pollBranch]
    exact ⟨h.evolves_refl, nofun⟩

theorem Coherent.pollBranches {w : World} (h : w.Coherent)
    (hnew : ∀ e, w.entities.size ≤ e → hidden e) (reporting : Reporting) (branches : List Branch)
    (hcalls : ∀ call ∈ Branch.allCalls branches, call.Sound w hidden)
    : Followed hidden Branch.allCalls w (w.pollBranches reporting branches).1
        (w.pollBranches reporting branches).2 := by
  cases branches with
  | nil =>
    rw [World.pollBranches]
    refine ⟨h.evolves_refl, ?_⟩
    intro branches hbranches
    cases hbranches
    exact hcalls
  | cons b bs =>
    rw [Branch.allCalls] at hcalls
    have hfirst := h.pollBranch hnew b fun call hmem => hcalls call (List.mem_append_left _ hmem)
    rw [World.pollBranches]
    cases hpolled : w.pollBranch b with | mk first w₁ =>
    rw [hpolled] at hfirst
    dsimp only at hfirst ⊢
    cases hhold : reporting.hold first with
    | error err => exact ⟨hfirst.evolves, nofun⟩
    | ok branch =>
      have hothers := hfirst.evolves.coherent.pollBranches
        (fun e he => hnew e (Nat.le_trans hfirst.evolves.entities_le he)) (reporting.next branch) bs
        fun call hmem => hfirst.evolves.toFrame.soundCall (fun e name _ => not_nowhere e name)
          (hcalls call (List.mem_append_right _ hmem))
      have hall := hfirst.cons hhold hothers
      dsimp only
      cases heq : w₁.pollBranches (reporting.next branch) bs with | mk results w' =>
      rw [heq] at hall
      cases results <;> exact hall

end

end World

end ObjectStore
