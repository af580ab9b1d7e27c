import RouteRegistry.Registry.Concurrent
import RouteRegistry.Registry.Registration
import RouteRegistry.Registry.Transactions

/-!
# The default domain

`set_default_domain` reads all domains and rewrites the flags that are wrong. Nothing in
`domain_table` keeps two rows from being the default, so what keeps them apart is that a
call sees the default it replaces.

- `DomainCall`: the calls of the domain API, whose sessions run side by side.
- `Store.OneDefault`: there is at most one default, so that `get_default` can fail only
  for want of one.
- `Overlooks`: a call commits a new default next to one it has not seen.
- `oneDefault_iff_overlooks`: a run keeps to one default exactly when no step of it does.
-/

namespace RouteRegistry

open Relational UnitOfWork Runs

/-! ## The calls of the domain API -/

/-- `adapter.to_domain`, which leaves `default` out; `id` is drawn. -/
def toDomain (id name value : String) : Domain := { id, name, value }

/-- A call of the domain API. -/
inductive DomainCall where
  | create (id name value : String)
  | setDefault (domainId : String)
  | remove (domainId : String)

/-- The `with` block of a call. -/
def DomainCall.body : DomainCall → Session Unit
  | create id name value => Txn.put (.addDomain (toDomain id name value))
  | setDefault domainId => setDefaultDomainBody domainId
  | remove domainId => DomainRepo.remove domainId

/-- Each call reads at most once, so it ends as it would in one go on what it has read. -/
theorem DomainCall.concludes (c : DomainCall) (v : Store) :
    c.body.Concludes (Rely.any Store) (fun v x Δ => (x, Δ) = c.body.run v) v [] := by
  cases c with
  | create id name value => exact (Txn.concludes_iff rfl).mpr rfl
  | setDefault domainId =>
    refine .read fun v _ => (Txn.concludes_iff ?_).mpr rfl
    refine Txn.reads_bind rfl ?_
    intro domains
    refine Txn.reads_bind (Txn.reads_forM Txn.reads_put _) fun _ => ?_
    split <;> rfl
  | remove domainId =>
    refine .read fun v _ => (Txn.concludes_iff ?_).mpr rfl
    refine Txn.reads_bind (Txn.reads_bind rfl fun domains => ?_) fun d => ?_
    · unfold scalarOneOrNone
      split <;> rfl
    · cases d <;> rfl

/-- What a call can write. -/
def DomainCall.mayQueue : DomainCall → Change → Prop
  | create id name value, c => c = .addDomain (toDomain id name value)
  | setDefault _, c => ∃ id value, c = .setDomainDefault id value
  | remove _, c => ∃ id, c = .deleteDomain id

theorem DomainCall.body_queues (c : DomainCall) : c.body.Queues c.mayQueue := by
  cases c with
  | create id name value => exact Txn.queues_put.mpr rfl
  | setDefault domainId =>
    refine Txn.queues_bind (Txn.queues_get _) ?_
    intro domains
    refine Txn.queues_bind (Txn.queues_forM fun c hc => ?_) fun _ => ?_
    · obtain ⟨d, -, rfl⟩ := List.mem_map.mp hc
      exact Txn.queues_put.mpr ⟨_, _, rfl⟩
    · split <;> simp
  | remove domainId =>
    refine Txn.queues_bind (queues_queryOne _ _) ?_
    intro d
    cases d with
    | none => simp
    | some d => exact Txn.queues_put.mpr ⟨_, rfl⟩

theorem DomainCall.finds_of_mayQueue {call : DomainCall} {c : Change} (h : call.mayQueue c) :
    c.finds = none := by
  cases call with
  | create id name value =>
    cases h
    rfl
  | setDefault domainId =>
    obtain ⟨id, value, rfl⟩ := h
    rfl
  | remove domainId =>
    obtain ⟨id, rfl⟩ := h
    rfl

theorem DomainCall.body_plain (call : DomainCall) : call.body.Queues fun c => c.finds = none :=
  call.body_queues.mono fun _ => DomainCall.finds_of_mayQueue

/-- A call that nobody interferes with does what its block does in one go. -/
theorem domainCall_alone (eng : Engine) (db : Database) (call : DomainCall) :
    ∃ n db' x p', run (readCommitted eng).move ⟨db, [.begin DomainCall.body db.store call]⟩
        (List.replicate n 0) = some ⟨db', [p']⟩ ∧
      p'.outcome = some x ∧ withUOW eng call.body db = Isolation.result db' x :=
  withUOW_alone_plain call.body_plain

/-! ## One default -/

def Store.defaults (s : Store) : List Domain := s.domains.filter Domain.default

/-- There is at most one default. Looking for it, as a registration without a domain name
does, fails only when there is none. -/
structure Store.OneDefault (s : Store) : Prop where
  atMostOne : s.defaults.length ≤ 1
  getDefault : ∀ e, (DomainRepo.getDefault.run s).1 = .error e → e.cls = .repoNotFound
  domainFor : ∀ e, s.domainFor none = .error e → e.cls = .repoNotFound

theorem Store.oneDefault_of_length {s : Store} (h : s.defaults.length ≤ 1) : s.OneDefault := by
  have hget : ∀ e, (DomainRepo.getDefault.run s).1 = .error e → e.cls = .repoNotFound := by
    intro e he
    have hquery : (queryOne Store.domains Domain.default).run s =
        (scalarOneOrNone s.defaults).run s := rfl
    unfold DomainRepo.getDefault at he
    cases hds : s.defaults with
    | nil =>
      rw [hds] at hquery
      rw [Txn.run_bind_pure hquery] at he
      cases he
      rfl
    | cons d rest =>
      cases rest with
      | nil =>
        rw [hds] at hquery
        rw [Txn.run_bind_pure hquery] at he
        cases he
      | cons d' rest =>
        rw [hds] at h
        simp at h
  have hnone : s.domains.filter (fun d => decide (some d.name = none)) = [] := by simp
  have hname : (DomainRepo.getByName none).run s = (.ok none, []) := by
    show (scalarOneOrNone (s.domains.filter fun d => decide (some d.name = none))).run s = _
    rw [hnone]
    rfl
  refine ⟨h, hget, fun e he => hget e ?_⟩
  unfold Store.domainFor findDomain at he
  rw [Txn.run_bind_pure hname] at he
  exact he

def Store.IsDefault (s : Store) (domainId : String) : Prop :=
  ∃ d ∈ s.domains, d.id = domainId ∧ d.default = true

/-- In a valid store, at most one default means that two defaults are the same. -/
theorem Store.oneDefault_iff {s : Store} (hv : s.Valid) :
    s.OneDefault ↔ ∀ id id', s.IsDefault id → s.IsDefault id' → id = id' := by
  constructor
  · rintro h _ _ ⟨d, hd, rfl, hdef⟩ ⟨d', hd', rfl, hdef'⟩
    have hm : d ∈ s.defaults := List.mem_filter.mpr ⟨hd, hdef⟩
    have hm' : d' ∈ s.defaults := List.mem_filter.mpr ⟨hd', hdef'⟩
    have hlen := h.atMostOne
    cases hds : s.defaults with
    | nil =>
      rw [hds] at hm
      cases hm
    | cons a rest =>
      rw [hds] at hm hm' hlen
      obtain rfl : rest = [] := List.length_eq_zero_iff.mp (by simpa using hlen)
      rw [List.mem_singleton.mp hm, List.mem_singleton.mp hm']
  · intro h
    refine Store.oneDefault_of_length ?_
    have hkeys : Keyed Domain.id s.defaults := hv.domainKeys.filter _
    have hmem : ∀ d ∈ s.defaults, s.IsDefault d.id := by
      intro d hd
      obtain ⟨hd, hdef⟩ := List.mem_filter.mp hd
      exact ⟨d, hd, rfl, hdef⟩
    cases hds : s.defaults with
    | nil => simp
    | cons a rest =>
      cases rest with
      | nil => simp
      | cons b rest =>
        rw [hds] at hkeys hmem
        have hab : a.id = b.id :=
          h a.id b.id (hmem a List.mem_cons_self) (hmem b (List.mem_cons_of_mem _ List.mem_cons_self))
        have hne : a.id ∉ (b :: rest).map Domain.id := (List.nodup_cons.mp hkeys).1
        rw [hab] at hne
        exact absurd (List.mem_map.mpr ⟨b, List.mem_cons_self, rfl⟩) hne

/-! ## What the calls commit -/

/-- The store with the flags of the domains `ids` rewritten for the default `t`. -/
def Store.withFlags (s : Store) (ids : List String) (t : String) : Store :=
  { s with domains := s.domains.map fun d =>
    if d.id ∈ ids then d.setDefault (decide (d.id = t)) else d }

/-- A flush of flags goes through when all their domains are stored. -/
theorem flush_flags {s s' : Store} {ids : List String} {t : String} :
    flush s (ids.map fun id => .setDomainDefault id (decide (id = t))) = .ok s' ↔
      (∀ id ∈ ids, id ∈ s.domainIds) ∧ s' = s.withFlags ids t := by
  induction ids generalizing s with
  | nil => simp [Store.withFlags, eq_comm]
  | cons id ids ih =>
    let s₁ : Store := { s with
      domains := modify Domain.id id (Domain.setDefault (decide (id = t))) s.domains }
    have hids : s₁.domainIds = s.domainIds :=
      map_modify (f := Domain.setDefault (decide (id = t))) Domain.id id (fun _ => rfl) s.domains
    have hflags : s₁.withFlags ids t = s.withFlags (id :: ids) t := by
      unfold Store.withFlags
      congr 1
      show (s.domains.map _).map _ = _
      rw [List.map_map]
      refine List.map_congr_left ?_
      intro d _
      by_cases hd : d.id = id
      · by_cases hm : id ∈ ids <;> simp [hd, hm, Domain.setDefault]
      · simp [hd]
    rw [List.map_cons, flush_cons_eq_ok]
    simp only [Change.apply, check_bind_eq_ok, pure_eq_ok, not_not]
    constructor
    · rintro ⟨_, ⟨hid, rfl⟩, hrest⟩
      obtain ⟨hall, rfl⟩ := ih.mp hrest
      refine ⟨fun i hi => ?_, hflags⟩
      rcases List.mem_cons.mp hi with rfl | hi
      · exact hid
      · exact hids ▸ hall i hi
    · rintro ⟨hall, rfl⟩
      refine ⟨s₁, ⟨hall id List.mem_cons_self, rfl⟩, ih.mpr ⟨fun i hi => ?_, hflags.symm⟩⟩
      rw [hids]
      exact hall i (List.mem_cons_of_mem _ hi)

/-- The domains whose flags a call rewrites. -/
def Store.wrongFlags (s : Store) (t : String) : List String :=
  (s.domains.filter fun d => decide (d.default ≠ decide (d.id = t))).map Domain.id

theorem Store.mem_wrongFlags {s : Store} {t id : String} :
    id ∈ s.wrongFlags t ↔ ∃ d ∈ s.domains, d.id = id ∧ d.default ≠ decide (id = t) := by
  simp only [Store.wrongFlags, List.mem_map, List.mem_filter, decide_eq_true_eq]
  constructor
  · rintro ⟨d, ⟨hd, hwrong⟩, rfl⟩
    exact ⟨d, hd, rfl, hwrong⟩
  · rintro ⟨d, hd, rfl, hwrong⟩
    exact ⟨d, ⟨hd, hwrong⟩, rfl⟩

theorem Store.isDefault_withFlags {s : Store} {ids : List String} {t id : String} :
    (s.withFlags ids t).IsDefault id ↔
      (id ∈ ids ∧ id = t ∧ id ∈ s.domainIds) ∨ (id ∉ ids ∧ s.IsDefault id) := by
  unfold Store.IsDefault Store.withFlags Store.domainIds
  simp only [List.mem_map]
  constructor
  · rintro ⟨_, ⟨d, hd, rfl⟩, hid, hdef⟩
    by_cases hm : d.id ∈ ids
    · rw [if_pos hm] at hid hdef
      obtain rfl : d.id = id := hid
      exact .inl ⟨hm, of_decide_eq_true hdef, d, hd, rfl⟩
    · rw [if_neg hm] at hid hdef
      subst hid
      exact .inr ⟨hm, d, hd, rfl, hdef⟩
  · rintro (⟨hm, rfl, d, hd, rfl⟩ | ⟨hm, d, hd, rfl, hdef⟩)
    · refine ⟨_, ⟨d, hd, rfl⟩, ?_⟩
      simp [hm, Domain.setDefault]
    · refine ⟨_, ⟨d, hd, rfl⟩, ?_⟩
      simp [hm, hdef]

theorem Store.defaultChanges_eq (s : Store) (t : String) :
    defaultChanges t s.domains =
      (s.wrongFlags t).map fun id => .setDomainDefault id (decide (id = t)) := by
  unfold defaultChanges Store.wrongFlags
  rw [List.map_map]
  rfl

theorem run_forM_put (s : Store) (Δ : List Change) :
    (Δ.forM Txn.put : Session Unit).run s = (.ok (), Δ) := by
  induction Δ with
  | nil => rfl
  | cons c Δ ih =>
    show ((Txn.put c : Session Unit) >>= fun _ => Δ.forM Txn.put).run s = _
    rw [Txn.run_put_bind, ih]

/-- A call that returns has found its domain, and queues the flags that are wrong. -/
theorem run_setDefaultDomainBody_ok {s : Store} {t : String} {Δ : List Change}
    (h : (.ok (), Δ) = (setDefaultDomainBody t).run s) :
    t ∈ s.domainIds ∧ Δ = (s.wrongFlags t).map fun id => .setDomainDefault id (decide (id = t)) := by
  unfold setDefaultDomainBody DomainRepo.list at h
  rw [Txn.run_get_bind, Txn.run_bind_ok (run_forM_put s _), s.defaultChanges_eq] at h
  cases hany : s.domains.any fun d => decide (d.id = t) with
  | false =>
    rw [hany] at h
    cases h
  | true =>
    rw [hany] at h
    refine ⟨?_, ?_⟩
    · obtain ⟨d, hd, hid⟩ := List.any_eq_true.mp hany
      exact List.mem_map.mpr ⟨d, hd, of_decide_eq_true hid⟩
    · simpa using congrArg Prod.snd h

/-! ## The call that overlooks a default -/

/-- A call for the domain `t` that has read `seen`, on the store `now`: it sets a flag,
everything it rewrites is still stored, and a domain it does not know as the default has
become one. -/
structure Store.Overlooked (seen now : Store) (t : String) : Prop where
  raises : ∃ d ∈ seen.domains, d.id = t ∧ d.default = false
  stored : ∀ d ∈ seen.domains, d.default ≠ decide (d.id = t) → d.id ∈ now.domainIds
  other : ∃ id, now.IsDefault id ∧ id ≠ t ∧ ¬ seen.IsDefault id

section Flags

variable {seen now : Store} {t : String}

theorem raises_iff : t ∈ seen.wrongFlags t ↔ ∃ d ∈ seen.domains, d.id = t ∧ d.default = false := by
  simp [Store.mem_wrongFlags]

/-- Rewritten flags leave one default unless the call overlooks another. -/
theorem oneDefault_withFlags (hv : now.Valid) (hv' : (now.withFlags (seen.wrongFlags t) t).Valid)
    (hstored : ∀ id ∈ seen.wrongFlags t, id ∈ now.domainIds) (h : now.OneDefault)
    (hno : ¬ seen.Overlooked now t) : (now.withFlags (seen.wrongFlags t) t).OneDefault := by
  -- the domain whose flag is set, beside one whose flag is left
  have hraised : ∀ id, t ∈ seen.wrongFlags t → id ∉ seen.wrongFlags t → now.IsDefault id →
      id = t := by
    intro id ht hid hdef
    by_contra hne
    refine hno ⟨raises_iff.mp ht, fun d hd hwrong => hstored _ ?_, id, hdef, hne, ?_⟩
    · exact Store.mem_wrongFlags.mpr ⟨d, hd, rfl, hwrong⟩
    · rintro ⟨d, hd, rfl, hdef'⟩
      exact hid (Store.mem_wrongFlags.mpr ⟨d, hd, rfl, by simp [hdef', hne]⟩)
  rw [Store.oneDefault_iff hv] at h
  rw [Store.oneDefault_iff hv']
  intro id id' hid hid'
  rw [Store.isDefault_withFlags] at hid hid'
  rcases hid with ⟨hm, rfl, -⟩ | ⟨hm, hdef⟩ <;> rcases hid' with ⟨hm', rfl, -⟩ | ⟨hm', hdef'⟩
  · rfl
  · exact (hraised id' hm hm' hdef').symm
  · exact hraised id hm' hm hdef
  · exact h id id' hdef hdef'

/-- A call that overlooks a default leaves two. -/
theorem two_defaults_withFlags (hv' : (now.withFlags (seen.wrongFlags t) t).Valid)
    (h : seen.Overlooked now t) : ¬ (now.withFlags (seen.wrongFlags t) t).OneDefault := by
  obtain ⟨hraises, hstored, id, hdef, hne, hseen⟩ := h
  have ht : t ∈ seen.wrongFlags t := raises_iff.mpr hraises
  have ht' : t ∈ now.domainIds := by
    obtain ⟨d, hd, rfl, hfalse⟩ := hraises
    exact hstored d hd (by simp [hfalse])
  have hleft : id ∉ seen.wrongFlags t := by
    intro hm
    obtain ⟨d, hd, rfl, hwrong⟩ := Store.mem_wrongFlags.mp hm
    exact hseen ⟨d, hd, rfl, by simpa [hne] using hwrong⟩
  rw [Store.oneDefault_iff hv']
  intro hone
  refine hne (hone id t (Store.isDefault_withFlags.mpr (.inr ⟨hleft, hdef⟩))
    (Store.isDefault_withFlags.mpr (.inl ⟨ht, rfl, ht'⟩)))

end Flags

/-! ## Calls side by side -/

/-- What a call commits: the flags it rewrites, or no new default. -/
theorem DomainCall.commit_cases {call : DomainCall} {seen now s' : Store} {Δ : List Change}
    (hrun : (.ok (), Δ) = call.body.run seen) (hf : flush now Δ = .ok s') :
    (∃ t, call = .setDefault t ∧ (∀ id ∈ seen.wrongFlags t, id ∈ now.domainIds) ∧
        s' = now.withFlags (seen.wrongFlags t) t) ∨
      ∀ id, s'.IsDefault id → now.IsDefault id := by
  have hΔ : ∀ c ∈ Δ, call.mayQueue c := by
    have hq := call.body_queues.run seen
    rw [← hrun] at hq
    exact hq
  cases call with
  | create id name value =>
    refine .inr (flush_keeps (I := fun s => ∀ i, s.IsDefault i → now.IsDefault i) ?_ hf
      fun _ h => h)
    rintro s hs c hc i ⟨d, hd, rfl, hdef⟩
    rw [show c = .addDomain (toDomain id name value) from hΔ c hc] at hd
    rcases List.mem_append.mp hd with hd | hd
    · exact hs _ ⟨d, hd, rfl, hdef⟩
    · rw [List.mem_singleton.mp hd] at hdef
      cases hdef
  | setDefault t =>
    obtain ⟨-, rfl⟩ := run_setDefaultDomainBody_ok hrun
    obtain ⟨hstored, rfl⟩ := flush_flags.mp hf
    exact .inl ⟨t, rfl, hstored, rfl⟩
  | remove domainId =>
    refine .inr (flush_keeps (I := fun s => ∀ i, s.IsDefault i → now.IsDefault i) ?_ hf
      fun _ h => h)
    rintro s hs c hc i ⟨d, hd, rfl, hdef⟩
    obtain ⟨id, rfl⟩ := hΔ c hc
    exact hs _ ⟨d, (mem_discard.mp hd).1, rfl, hdef⟩

/-- The calls of several administrators on one database. -/
abbrev domainStep (eng : Engine) :
    Sessions DomainCall Unit → Action DomainCall → Option (Sessions DomainCall Unit) :=
  (readCommitted eng).step DomainCall.body

/-- A call commits a default next to one it has not seen. -/
def Overlooks (w : Sessions DomainCall Unit) : Action DomainCall → Prop
  | .start _ => False
  | .move i => ∃ p t, w.sessions[i]? = some p ∧ p.AtCommit () ∧ p.call = .setDefault t ∧
      p.seen.Overlooked w.db.store t

/-- What holds of the sessions at every step. -/
structure DomainCalls (eng : Engine) (w : Sessions DomainCall Unit) : Prop where
  sound : w.Sound (readCommitted eng) (Rely.any Store) fun c v x Δ => (x, Δ) = c.body.run v
  plain : ∀ p ∈ w.sessions, p.Plain (readCommitted eng)

section Step

variable {eng : Engine} {w w' : Sessions DomainCall Unit} {a : Action DomainCall}

theorem DomainCalls.step (h : DomainCalls eng w) (hstep : domainStep eng w a = some w') :
    DomainCalls eng w' := by
  cases a with
  | start call =>
    cases hstep
    refine ⟨h.sound.start (call.concludes _), fun p hp => ?_⟩
    rcases List.mem_append.mp hp with hp | hp
    · exact h.plain p hp
    · rw [List.mem_singleton.mp hp]
      exact InFlight.plain_begin call.body_plain
  | move i =>
    exact ⟨(h.sound.move hstep fun _ _ _ _ _ _ _ => trivial).1, World.plain_move h.plain hstep⟩

/-- What a session at its commit has concluded. -/
theorem DomainCalls.concluded (h : DomainCalls eng w) {i : Nat} {p : Running DomainCall Unit}
    (hp : w.sessions[i]? = some p) (hcommit : p.AtCommit ()) :
    (.ok (), p.passed) = p.call.body.run p.seen :=
  ((h.sound p (List.mem_of_getElem? hp)).ret hcommit.1 hcommit.2.2).2

/-- A step that overlooks no default leaves at most one. -/
theorem step_oneDefault (hcalls : DomainCalls eng w) (h : w.db.store.OneDefault)
    (hno : ¬ Overlooks w a) (hstep : domainStep eng w a = some w') : w'.db.store.OneDefault := by
  cases a with
  | start call =>
    cases hstep
    exact h
  | move i =>
    rcases plain_move_cases hcalls.plain hstep with hdb | ⟨p, ⟨⟩, hp, hcommit, hf⟩
    · rw [hdb]
      exact h
    · rcases DomainCall.commit_cases (hcalls.concluded hp hcommit) hf with
        ⟨t, hcall, hstored, hs'⟩ | hold
      · have hv' := w'.db.valid
        rw [hs'] at hv' ⊢
        refine oneDefault_withFlags w.db.valid hv' hstored h fun hover => hno ?_
        exact ⟨p, t, hp, hcommit, hcall, hover⟩
      · rw [Store.oneDefault_iff w'.db.valid]
        intro id id' hid hid'
        exact (Store.oneDefault_iff w.db.valid).mp h id id' (hold id hid) (hold id' hid')

/-- A step that overlooks one leaves two, with an engine that fails only when the flush
does. -/
theorem overlooks_two_defaults (hrel : eng.Reliable) (hcalls : DomainCalls eng w)
    (h : Overlooks w a) (hstep : domainStep eng w a = some w') : ¬ w'.db.store.OneDefault := by
  cases a with
  | start call => exact h.elim
  | move i =>
    obtain ⟨p, t, hp, hcommit, hcall, hover⟩ := h
    have hrun := hcalls.concluded hp hcommit
    rw [hcall] at hrun
    obtain ⟨-, hpassed⟩ := run_setDefaultDomainBody_ok hrun
    have hstored : ∀ id ∈ p.seen.wrongFlags t, id ∈ w.db.store.domainIds := by
      intro id hid
      obtain ⟨d, hd, rfl, hwrong⟩ := Store.mem_wrongFlags.mp hid
      exact hover.stored d hd hwrong
    have hf : flush w.db.store p.passed =
        .ok (w.db.store.withFlags (p.seen.wrongFlags t) t) := by
      rw [hpassed]
      exact flush_flags.mpr ⟨hstored, rfl⟩
    have hs' := plain_commits hrel (hcalls.plain p (List.mem_of_getElem? hp)) hp hcommit hf hstep
    have hv' := w'.db.valid
    rw [hs'] at hv' ⊢
    exact two_defaults_withFlags hv' hover

end Step

/-- **One default.** Let administrators create, remove and choose domains side by side,
starting from a database without any. Every state of the run has at most one default
exactly when no step of it commits a default next to one that its call has not seen. -/
theorem oneDefault_iff_overlooks (eng : Engine) (hrel : eng.Reliable) (db : Database)
    (hempty : db.store.domains = []) (as : List (Action DomainCall))
    (w : Sessions DomainCall Unit) (hrun : run (domainStep eng) ⟨db, []⟩ as = some w) :
    (∀ as₁ as₂ w₁, as = as₁ ++ as₂ → run (domainStep eng) ⟨db, []⟩ as₁ = some w₁ →
        w₁.db.store.OneDefault) ↔
      Along (domainStep eng) (fun w a => ¬ Overlooks w a) ⟨db, []⟩ as := by
  have hstart : DomainCalls eng ⟨db, []⟩ := ⟨by simp [World.Sound], by simp⟩
  have hcalls : ∀ as₁ w₁, run (domainStep eng) ⟨db, []⟩ as₁ = some w₁ → DomainCalls eng w₁ := by
    intro as₁ w₁ hrun₁
    exact run_keeps (P := fun _ _ => True) (fun _ _ _ h _ hstep => h.step hstep)
      (along_of_forall fun _ _ => trivial) hrun₁ hstart
  constructor
  · intro h
    refine along_iff.mpr ?_
    intro as₁ a as₂ w₁ hsplit hrun₁ hover
    obtain ⟨w₁', hrun₁', hrest⟩ := run_append.mp (hsplit ▸ hrun)
    obtain rfl : w₁ = w₁' := Option.some.inj (hrun₁.symm.trans hrun₁')
    obtain ⟨w₂, hstep, -⟩ := run_cons_eq_some.mp hrest
    refine overlooks_two_defaults hrel (hcalls as₁ w₁ hrun₁) hover hstep ?_
    refine h (as₁ ++ [a]) as₂ w₂ (by simp [hsplit]) (run_append.mpr ⟨w₁, hrun₁, ?_⟩)
    exact (run_cons hstep).trans run_nil
  · rintro h as₁ as₂ w₁ rfl hrun₁
    have hone : (⟨db, []⟩ : Sessions DomainCall Unit).db.store.OneDefault :=
      Store.oneDefault_of_length (by simp [Store.defaults, hempty])
    refine (run_keeps (I := fun w => DomainCalls eng w ∧ w.db.store.OneDefault)
      (P := fun w a => ¬ Overlooks w a) ?_ h.left hrun₁ ⟨hstart, hone⟩).2
    exact fun _ _ _ h hno hstep => ⟨h.1.step hstep, step_oneDefault h.1 h.2 hno hstep⟩

/-- A database without rows. -/
def noDomains : Database := ⟨{}, Store.empty_valid⟩

/-- One administrator creates two domains, and makes the one and then the other the default. -/
def oneAdmin : List (Action DomainCall) :=
  [.start (.create "a" "first" "a.example"), .move 0, .move 0,
    .start (.create "b" "second" "b.example"), .move 1, .move 1,
    .start (.setDefault "a"), .move 2, .move 2, .move 2,
    .start (.setDefault "b"), .move 3, .move 3, .move 3, .move 3]

/-- A session overlooks nothing but where it commits a new default. -/
theorem not_overlooks {w : Sessions DomainCall Unit} {i : Nat} {p : Running DomainCall Unit}
    (hp : w.sessions[i]? = some p)
    (h : ∀ t, p.AtCommit () → p.call = .setDefault t → ¬ p.seen.Overlooked w.db.store t) :
    ¬ Overlooks w (.move i) := by
  rintro ⟨p', t, hp', hcommit, hcall, hover⟩
  cases hp.symm.trans hp'
  exact h t hcommit hcall hover

/-- There is at most one default throughout. -/
theorem oneAdmin_oneDefault :
    (run (domainStep .sqlite) ⟨noDomains, []⟩ oneAdmin).map (fun w => w.db.store.domains) =
        some [⟨"a", "first", "a.example", .standard, false, false⟩,
          ⟨"b", "second", "b.example", .standard, false, true⟩] ∧
      ∀ as₁ as₂ w₁, oneAdmin = as₁ ++ as₂ →
        run (domainStep .sqlite) ⟨noDomains, []⟩ as₁ = some w₁ → w₁.db.store.OneDefault := by
  refine ⟨rfl, (oneDefault_iff_overlooks .sqlite Engine.sqlite_reliable noDomains rfl oneAdmin _
    rfl).mpr ?_⟩
  have hcreates : ∀ {w : Sessions DomainCall Unit} {i : Nat} {p : Running DomainCall Unit},
      w.sessions[i]? = some p → (∀ t, p.call ≠ .setDefault t) → ¬ Overlooks w (.move i) :=
    fun hp hcall => not_overlooks hp fun t _ h => absurd h (hcall t)
  have hgoesOn : ∀ {w : Sessions DomainCall Unit} {i : Nat} {p : Running DomainCall Unit},
      w.sessions[i]? = some p → ¬ p.AtCommit () → ¬ Overlooks w (.move i) :=
    fun hp hcommit => not_overlooks hp fun t h => absurd h hcommit
  -- the two domains
  refine along_cons id rfl (along_cons (hcreates rfl fun _ h => by cases h) rfl
    (along_cons (hcreates rfl fun _ h => by cases h) rfl (along_cons id rfl
    (along_cons (hcreates rfl fun _ h => by cases h) rfl
    (along_cons (hcreates rfl fun _ h => by cases h) rfl ?_)))))
  -- the first choice: nothing is the default yet
  refine along_cons id rfl (along_cons (hgoesOn rfl fun h => by cases h.2.2) rfl
    (along_cons (hgoesOn rfl fun h => by cases h.2.2) rfl
    (along_cons (not_overlooks rfl fun t _ _ hover => ?_) rfl ?_)))
  · obtain ⟨id, ⟨d, hd, -, hdef⟩, -⟩ := hover.other
    have hnone : ∀ d ∈ [toDomain "a" "first" "a.example", toDomain "b" "second" "b.example"],
        d.default = false := by decide
    cases (hnone d hd).symm.trans hdef
  -- the second one has seen the first
  refine along_cons id rfl (along_cons (hgoesOn rfl fun h => by cases h.2.2) rfl
    (along_cons (hgoesOn rfl fun h => by cases h.2.2) rfl
    (along_cons (hgoesOn rfl fun h => by cases h.2.2) rfl
    (along_cons (not_overlooks rfl fun t _ _ hover => ?_) rfl trivial))))
  obtain ⟨id, hdefault, -, hseen⟩ := hover.other
  exact hseen hdefault

/-- Two administrators choose different defaults, and both calls read before one writes. -/
def twoAdmins : List (Action DomainCall) :=
  [.start (.create "a" "first" "a.example"), .move 0, .move 0,
    .start (.create "b" "second" "b.example"), .move 1, .move 1,
    .start (.setDefault "a"), .start (.setDefault "b"), .move 2, .move 3,
    .move 2, .move 2, .move 3, .move 3]

def afterTwoAdmins : Sessions DomainCall Unit :=
  (run (domainStep .sqlite) ⟨noDomains, []⟩ twoAdmins).getD ⟨noDomains, []⟩

/-- Both domains are the default, and looking for it fails. -/
theorem twoAdmins_twoDefaults :
    run (domainStep .sqlite) ⟨noDomains, []⟩ twoAdmins = some afterTwoAdmins ∧
      afterTwoAdmins.db.store.defaults.length = 2 ∧
      ∃ e, (DomainRepo.getDefault.run afterTwoAdmins.db.store).1 = .error e ∧
        e.cls = .lib .multipleResultsFound :=
  ⟨rfl, by decide, _, rfl, rfl⟩

end RouteRegistry
