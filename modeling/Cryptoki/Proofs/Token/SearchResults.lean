import Cryptoki.Proofs.Token.Matching
import Cryptoki.Proofs.Token.Searches

/-!
What a search gives as long as no failure is injected: all that was to be found when it started, in
batches of whatever size, and nothing else.
-/
namespace Cryptoki

/-- A list dealt out in pieces of the sizes, as far as it goes. -/
def dealt {α : Type} : List Nat → List α → List (List α)
  | [], _ => []
  | n :: sizes, l => l.take n :: dealt sizes (l.drop n)

theorem length_dealt {α : Type} (sizes : List Nat) (l : List α) :
    (dealt sizes l).length = sizes.length := by
  induction sizes generalizing l with
  | nil => rfl
  | cons n rest ih => rw [dealt, List.length_cons, List.length_cons, ih]

theorem flatten_dealt_prefix {α : Type} (sizes : List Nat) (l : List α) :
    (dealt sizes l).flatten <+: l := by
  induction sizes generalizing l with
  | nil => exact List.nil_prefix
  | cons n rest ih =>
    have split : l.take n ++ (dealt rest (l.drop n)).flatten <+: l.take n ++ l.drop n :=
      (List.prefix_append_right_inj _).mpr (ih (l.drop n))
    rwa [List.take_append_drop] at split

theorem flatten_of_empty_piece {α : Type} {sizes : List Nat} {l : List α}
    (positive : ∀ n ∈ sizes, 0 < n) {before after : List (List α)}
    (pieces : dealt sizes l = before ++ [] :: after) : before.flatten = l := by
  induction sizes generalizing l before with
  | nil => cases before <;> cases pieces
  | cons n rest ih =>
    cases before with
    | nil =>
      have empty : l.take n = [] := (List.cons.inj pieces).1
      have some_size := positive n List.mem_cons_self
      rcases List.take_eq_nil_iff.mp empty with none | none
      · omega
      · exact none.symm
    | cons piece before =>
      obtain ⟨rfl, others⟩ := List.cons.inj pieces
      rw [List.flatten_cons, ih (fun n member => positive n (List.mem_cons_of_mem _ member)) others,
        List.take_append_drop]

namespace Token

open Session SessionM

variable {t t' : Token} {handle : Handle} {s s' : Session} {pending : List Handle}
  {template : Template}

/-- The search is under way on both sides, with the handles that the token has yet to give, and no
failure is to come. -/
structure Midway (handle : Handle) (pending : List Handle) (s : Session) (t : Token) : Prop where
  own : s.handle = handle
  admits : t.Admits handle
  searching : Searching (s.operation .findObjects)
  pending : t.searches.get? handle = some pending

theorem ends_search_begun (standing : Standing handle false False s t) (clear : t.Clear) :
    Ends (findObjectsInit Token.module template) s t fun r s' t' => r = .ok () ∧
      Midway handle (t.matching (Object.ofTemplate template.toArray)) s' t' := by
  obtain ⟨rfl, opened, idle, free⟩ := standing
  have idle : s.operation .findObjects = .idle := idle
  have free : t.searches.contains s.handle = false := by
    simpa [Searched, Table.contains] using free
  have accepted : s.checkStart .findObjects = .ok () := by simp [checkStart, idle, Operation.idle]
  have asked : Ends (ask Token.module (.findObjectsInit s.handle template.toArray)) s t
      fun r s' t' => r = .ok () ∧ s' = s ∧ ∃ calls, t' = { t with
        searches := t.searches.insert s.handle (t.matching (Object.ofTemplate template.toArray))
        calls } := by
    have served : ∀ f, perform (.findObjectsInit s.handle template.toArray) (t.record f) =
        give () { t.record f with
          searches := t.searches.insert s.handle
            (t.matching (Object.ofTemplate template.toArray)) } := by
      intro f
      simp [perform, search, record, free, matching]
    refine ends_ask_of_clear clear rfl opened ?_
    rw [served]
    exact ⟨rfl, rfl, _, rfl⟩
  refine ends_of_accepted accepted (asked.bind_ok ?_)
  rintro s' t' ⟨rfl, calls, rfl⟩
  refine quiet_setState.ends_last ⟨rfl, rfl, ⟨clear, opened⟩, ?_, Table.get?_insert_self _ _ _⟩
  rw [operation_setOperation, idle]
  exact ⟨by simp [inState], rfl⟩

theorem ends_search_batch (midway : Midway handle pending s t) (n : Nat) :
    Ends (findObjectsNext Token.module n) s t fun r s' t' => r = .ok (pending.take n) ∧
      Midway handle (pending.drop n) s' t' := by
  obtain ⟨rfl, ⟨clear, opened⟩, searching, held⟩ := midway
  have batch : ∀ f, perform (.findObjects s.handle n) (t.record f) =
      (⟨.handles (pending.take n), .ok (pending.take n).length⟩,
        { t.record f with searches := t.searches.insert s.handle (pending.drop n) }) := by
    intro f
    simp [perform, nextFound, record, held]
  have asked : Ends (do
      let a ← askAnswer Token.module (.findObjects s.handle n)
      let count ← ofResult a.result
      return a.written.handleBuffer (min n count)) s t fun r s' t' =>
        r = .ok (pending.take n) ∧ s' = s ∧ ∃ calls, t' = { t with
          searches := t.searches.insert s.handle (pending.drop n), calls } := by
    refine ends_askAnswer_bind ?_
    rw [module_answer, answer_of_clear clear rfl opened, batch]
    refine quiet_ofResult.ends (ends_pure ⟨?_, rfl, _, rfl⟩)
    have fits : min n (pending.take n).length = (pending.take n).length :=
      Nat.min_eq_right (List.length_take_le n pending)
    rw [fits]
    simp only [Written.handleBuffer, List.take_length, Nat.sub_self, List.replicate_zero,
      List.append_nil]
  refine (ends_of_accepted (checkUpdate_of_searching searching)
    (quiet_reserve.ends asked.updating)).mono ?_
  rintro r _ t' ⟨s', ⟨rfl, rfl, calls, rfl⟩, rfl⟩
  refine ⟨rfl, rfl, ⟨clear, opened⟩, ?_, Table.get?_insert_self _ _ _⟩
  rw [operation_setOperation]
  exact ⟨by simp [inState, Except.isOk, Except.toBool], searching.2⟩

theorem ends_search_over (midway : Midway handle pending s t) :
    Ends (findObjectsFinal Token.module) s t fun r s' t' => r = .ok () ∧
      Standing handle false False s' t' := by
  obtain ⟨rfl, ⟨clear, opened⟩, searching, held⟩ := midway
  have ended : ∀ f, perform (.findObjectsFinal s.handle) (t.record f) =
      give () { t.record f with searches := t.searches.erase s.handle } := by
    intro f
    simp [perform, endSearch, record, Table.contains, held]
  have asked : Ends (ask Token.module (.findObjectsFinal s.handle)) s t fun r s' t' =>
      r = .ok () ∧ s' = s ∧ ∃ calls, t' = { t with
        searches := t.searches.erase s.handle, calls } := by
    refine ends_ask_of_clear clear rfl opened ?_
    rw [ended]
    exact ⟨rfl, rfl, _, rfl⟩
  refine (ends_of_accepted (checkFinal_of_searching searching) asked.finishing).mono ?_
  rintro r _ t' ⟨s', ⟨rfl, rfl, calls, rfl⟩, rfl⟩
  refine ⟨rfl, rfl, opened, operation_setOperation _ _ _, ?_⟩
  simp [Searched, Table.get?_erase]

theorem ends_gathered (batches : Nat) (midway : Midway handle pending s t) :
    Ends (gather Token.module batches) s t fun r s' t' =>
      r = .ok (pending.take (findBatch * batches)) ∧
        Midway handle (pending.drop (findBatch * batches)) s' t' := by
  induction batches generalizing s t pending with
  | zero => exact ends_pure ⟨by simp, by simpa using midway⟩
  | succ batches ih =>
    refine (ends_search_batch midway findBatch).bind_ok fun s' t' next => ?_
    have size : findBatch * (batches + 1) = findBatch + findBatch * batches := by
      rw [Nat.mul_succ, Nat.add_comm]
    cases batch : pending.take findBatch with
    | nil =>
      -- An empty batch is the last: there was nothing to be given any more.
      have none : pending = [] := by simpa [findBatch] using batch
      subst none
      exact ends_pure ⟨by simp, by simpa using next⟩
    | cons h hs =>
      refine (ih next).bind_ok fun s'' t'' last => ?_
      refine ends_pure ⟨?_, ?_⟩
      · rw [← batch, size, List.take_add]
      · rwa [List.drop_drop, ← size] at last

theorem ends_search (standing : Standing handle false False s t) (clear : t.Clear) (batches : Nat) :
    Ends (findObjects Token.module batches template) s t fun r s' t' =>
      r = .ok ((t.matching (Object.ofTemplate template.toArray)).take (findBatch * batches)) ∧
        Standing handle false False s' t' := by
  refine (ends_search_begun standing clear).bind_ok fun s' t' begun => ?_
  refine (ends_gathered batches begun).bind_ok fun s' t' left => ?_
  refine (ends_search_over left).bind_ok fun s' t' ended => ?_
  exact ends_pure ⟨rfl, ended⟩

theorem gather_steady {n m : Nat} (midway : Midway handle pending s t)
    (enough : pending.length + findBatch ≤ findBatch * n) (more : n ≤ m) (journal : Journal) :
    gather Token.module m s ⟨t, journal⟩ = gather Token.module n s ⟨t, journal⟩ := by
  induction n generalizing m s t pending journal with
  | zero => simp [findBatch] at enough
  | succ n ih =>
    have positive : 0 < m := Nat.lt_of_lt_of_le n.succ_pos more
    obtain ⟨m, rfl⟩ := Nat.exists_eq_succ_of_ne_zero positive.ne'
    have ends := ends_search_batch midway findBatch journal
    rcases first : findObjectsNext Token.module findBatch s ⟨t, journal⟩ with
      ⟨⟨r, s'⟩, ⟨t', journal'⟩⟩
    rw [first] at ends
    obtain ⟨same, next⟩ := ends
    cases same
    rw [gather, gather, bind_of_ok first, bind_of_ok first]
    cases batch : pending.take findBatch with
    | nil => rfl
    | cons h hs =>
      have fewer : (pending.drop findBatch).length + findBatch ≤ findBatch * n := by
        have some_left : 0 < (pending.take findBatch).length := by simp [batch]
        rw [List.length_take] at some_left
        rw [List.length_drop]
        simp only [findBatch] at *
        omega
      have same : gather Token.module m s' ⟨t', journal'⟩ =
          gather Token.module n s' ⟨t', journal'⟩ :=
        ih next fewer (Nat.le_of_succ_le_succ more) journal'
      dsimp only
      rw [bind_run, bind_run, same]

theorem search_steady {n m : Nat} (standing : Standing handle false False s t) (clear : t.Clear)
    (enough : (t.matching (Object.ofTemplate template.toArray)).length + findBatch ≤ findBatch * n)
    (more : n ≤ m) (journal : Journal) :
    findObjects Token.module m template s ⟨t, journal⟩ =
      findObjects Token.module n template s ⟨t, journal⟩ := by
  have begins : Ends (findObjectsInit Token.module template) s t _ :=
    ends_search_begun standing clear
  have ends := begins journal
  rcases first : findObjectsInit Token.module template s ⟨t, journal⟩ with
    ⟨⟨r, s'⟩, ⟨t', journal'⟩⟩
  rw [first] at ends
  obtain ⟨same, begun⟩ := ends
  cases same
  rw [findObjects, findObjects, bind_of_ok first, bind_of_ok first, bind_run, bind_run,
    gather_steady begun enough more journal']

theorem search_exhausts (standing : Standing handle false False s t) (clear : t.Clear)
    (journal : Journal) :
    let found := t.matching (Object.ofTemplate template.toArray)
    ∃ s' host, Standing handle false False s' host.state ∧
      ∀ batches, found.length + findBatch ≤ findBatch * batches →
        step Token.module (.findObjects batches template) s ⟨t, journal⟩ =
          (.ok (.handles found), s', host) := by
  intro found
  let rounds := found.length / findBatch + 2
  have enough : found.length + findBatch ≤ findBatch * rounds := by
    simp only [rounds, findBatch]
    omega
  have steady : ∀ batches, found.length + findBatch ≤ findBatch * batches →
      step Token.module (.findObjects batches template) s ⟨t, journal⟩ =
        step Token.module (.findObjects rounds template) s ⟨t, journal⟩ := by
    intro batches reach
    have same : findObjects Token.module batches template s ⟨t, journal⟩ =
        findObjects Token.module rounds template s ⟨t, journal⟩ := by
      rcases Nat.le_total rounds batches with more | fewer
      · exact search_steady standing clear enough more journal
      · exact (search_steady standing clear reach fewer journal).symm
    have performed : Session.perform Token.module (.findObjects batches template) s ⟨t, journal⟩ =
        Session.perform Token.module (.findObjects rounds template) s ⟨t, journal⟩ := by
      simp only [Session.perform, map_eq_pure_bind, bind_run, same]
    simp only [step, performed]
  have ends : Ends (Session.perform Token.module (.findObjects rounds template)) s t fun r s' t' =>
      r = .ok (.handles found) ∧ Standing handle false False s' t' := by
    refine (ends_search standing clear rounds).map ?_
    rintro r s' t' ⟨rfl, ended⟩
    rw [List.take_of_length_le (Nat.le_of_add_right_le enough)]
    exact ⟨rfl, ended⟩
  obtain ⟨result, ended⟩ := step_of_ends ends journal
  refine ⟨_, _, ended, fun batches reach => ?_⟩
  rw [steady batches reach, ← result]

end Token

namespace Bench

open Session

variable {b : Bench} {handle : Handle} {d : Desk} {e : Event} {pending : List Handle}

/-- What is asked of the search in the session is the next batch, of a positive size. Anything else
may happen that neither injects a failure nor closes the session. -/
structure Event.Fetches (handle : Handle) (e : Event) : Prop where
  spares : e.Spares handle
  fetches : ∀ c, e.own? handle .findObjects = some c → ∃ n, 0 < n ∧ c = .findObjectsNext n

def sizes (handle : Handle) (events : List Event) : List Nat :=
  (events.filterMap (Event.own? handle .findObjects)).filterMap fun
    | .findObjectsNext n => some n
    | _ => none

def fetched (n : Nat) (batch : List Handle) : Call × Result Outcome :=
  (.findObjectsNext n, .ok (.handles batch))

theorem Undisturbed.midway {b' : Bench} {d' : Desk} (calm : b'.Calm)
    (undisturbed : Undisturbed handle .findObjects b d b' d')
    (midway : Token.Midway handle pending d.session b.host.state) :
    Token.Midway handle pending d'.session b'.host.state where
  own := (calm.desks handle d' undisturbed.present).own
  admits := calm.admits undisturbed.present
  searching := by
    rw [undisturbed.operation]
    exact midway.searching
  pending := by
    rw [undisturbed.searches rfl]
    exact midway.pending

theorem desk_of_ends {c : Call} {r : Result Outcome} {post : Session → Token → Prop}
    (present : b.desks.get? handle = some d)
    (ends : SessionM.Ends (perform Token.module c) d.session b.host.state fun r' s' t' =>
      r' = r ∧ post s' t') :
    ∃ s', (b.step (.call handle c)).desks.get? handle = some ⟨s', d.history ++ [(c, r)]⟩ ∧
      post s' (b.step (.call handle c)).host.state := by
  obtain ⟨result, holds⟩ := step_of_ends ends b.host.journal
  have result : (Session.step Token.module c d.session b.host).1 = r := result
  simp only [step, present, result]
  exact ⟨_, Table.get?_insert_self _ _ _, holds⟩

theorem fetch_step (present : b.desks.get? handle = some d)
    (midway : Token.Midway handle pending d.session b.host.state) (n : Nat) :
    ∃ s', (b.step (.call handle (.findObjectsNext n))).desks.get? handle =
        some ⟨s', d.history ++ [fetched n (pending.take n)]⟩ ∧
      Token.Midway handle (pending.drop n) s'
        (b.step (.call handle (.findObjectsNext n))).host.state := by
  refine desk_of_ends present ((Token.ends_search_batch midway n).map ?_)
  rintro r s' t' ⟨rfl, next⟩
  exact ⟨rfl, next⟩

/-- The handles that the token has to give are dealt out in the batches that are asked for. -/
theorem fetch_run (events : List Event) (calm : b.Calm) (present : b.desks.get? handle = some d)
    (midway : Token.Midway handle pending d.session b.host.state)
    (fetches : ∀ e ∈ events, e.Fetches handle) :
    ∃ d', (b.run events).desks.get? handle = some d' ∧
      ofKind .findObjects d'.history = ofKind .findObjects d.history ++
        List.zipWith fetched (sizes handle events) (dealt (sizes handle events) pending) := by
  induction events generalizing b d pending with
  | nil => exact ⟨d, present, by simp [sizes]⟩
  | cons e rest ih =>
    obtain ⟨⟨spares, fetched_only⟩, later⟩ := List.forall_mem_cons.mp fetches
    have next : (b.step e).Calm := calm.step spares.quiet
    cases owned : e.own? handle .findObjects with
    | none =>
      obtain ⟨d', undisturbed⟩ := undisturbed_step calm present spares owned
      obtain ⟨d'', there, history⟩ :=
        ih next undisturbed.present (undisturbed.midway next midway) later
      refine ⟨d'', there, ?_⟩
      rw [history, undisturbed.history, sizes, sizes, List.filterMap_cons_none owned]
    | some c =>
      obtain ⟨n, _, rfl⟩ := fetched_only c owned
      obtain ⟨rfl, kind⟩ := Event.own?_eq_some.mp owned
      obtain ⟨s', there, left⟩ := fetch_step present midway n
      obtain ⟨d'', there, history⟩ := ih next there left later
      refine ⟨d'', there, ?_⟩
      have asked : sizes handle (.call handle (.findObjectsNext n) :: rest) =
          n :: sizes handle rest := by
        rw [sizes, List.filterMap_cons_some owned]
        rfl
      have recorded : ofKind .findObjects (d.history ++ [fetched n (pending.take n)]) =
          ofKind .findObjects d.history ++ [fetched n (pending.take n)] := by
        simp [ofKind, fetched, kind]
      rw [history, recorded, asked, List.append_assoc]
      rfl

theorem sizes_positive {events : List Event} (fetches : ∀ e ∈ events, e.Fetches handle) :
    ∀ n ∈ sizes handle events, 0 < n := by
  intro n member
  obtain ⟨c, asked, found⟩ := List.mem_filterMap.mp member
  obtain ⟨e, here, owned⟩ := List.mem_filterMap.mp asked
  obtain ⟨n', positive, rfl⟩ := (fetches e here).fetches c owned
  cases found
  exact positive

/-- Where no search is under way in the session, a whole search ends by itself and gives the objects
that have all that the template asks for, each of them once and in ascending order, and no search is
under way after it. Begun instead and then asked for batch after batch, the search gives the same
handles in the same order, as far as it gets, and an empty batch only after all of them, whatever
happens to the objects meanwhile. What a template asks for is what the token finds in its array: the
values of the template, if what is inside it is flat. -/
theorem search_is_complete (calm : b.Calm) (present : b.desks.get? handle = some d)
    (standing : Token.Standing handle false False d.session b.host.state)
    (distinct : b.host.state.Distinct) (template : Template) :
    let wanted := Token.Object.ofTemplate template.toArray
    (template.Normal .bundled → template.Flat → wanted = template.wanted) ∧
    ∃ found : List Handle, found.Pairwise (· < ·) ∧
      (∀ h, h ∈ found ↔ ∃ o, b.host.state.objects.get? h = some o ∧ ∀ p ∈ wanted, p ∈ o) ∧
      (∃ s host, Token.Standing handle false False s host.state ∧
        ∀ batches, found.length + findBatch ≤ findBatch * batches →
          Session.step Token.module (.findObjects batches template) d.session b.host =
            (.ok (.handles found), s, host)) ∧
      ∀ events, (∀ e ∈ events, e.Fetches handle) →
        let asked := sizes handle events
        let batches := dealt asked found
        (∃ d', (b.run (.call handle (.findObjectsInit template) :: events)).desks.get? handle =
            some d' ∧
          ofKind .findObjects d'.history = ofKind .findObjects d.history ++
            (.findObjectsInit template, .ok .done) :: List.zipWith fetched asked batches) ∧
        batches.length = asked.length ∧ batches.flatten <+: found ∧
        ∀ before after, batches = before ++ [] :: after → before.flatten = found := by
  have clear := (calm.admits present).clear
  refine ⟨Token.ofTemplate_toArray, _, Token.ascending_matching distinct _,
    fun h => Token.mem_matching distinct, Token.search_exhausts standing clear b.host.journal,
    fun events fetches => ⟨?_, length_dealt _ _, flatten_dealt_prefix _ _, ?_⟩⟩
  · have begun : SessionM.Ends (perform Token.module (.findObjectsInit template)) d.session
        b.host.state fun r s' t' => r = .ok .done ∧
          Token.Midway handle (b.host.state.matching (Token.Object.ofTemplate template.toArray))
            s' t' := by
      refine (Token.ends_search_begun standing clear).map ?_
      rintro r s' t' ⟨rfl, midway⟩
      exact ⟨rfl, midway⟩
    obtain ⟨s', there, midway⟩ := desk_of_ends present begun
    have next : (b.step (.call handle (.findObjectsInit template))).Calm :=
      calm.step fun _ _ _ same => nomatch same
    obtain ⟨d', present', history⟩ := fetch_run events next there midway fetches
    refine ⟨d', present', ?_⟩
    have recorded : ofKind .findObjects (d.history ++ [(.findObjectsInit template, .ok .done)]) =
        ofKind .findObjects d.history ++ [(.findObjectsInit template, .ok .done)] := by
      simp [ofKind, Call.kind?, Call.role?]
    rw [history, recorded, List.append_assoc]
    rfl
  · intro before after
    exact flatten_of_empty_piece (sizes_positive fetches)

def signingKeys : Template :=
  ⟨[.scalar 0x0 false (.objectClass 3), .absent 0x102 false,
    .template 0x40000211 false [.scalar 0x500 false (.mechanism 0x40)]]⟩

def signingKey (label : UInt8) : Token.Object :=
  [(0x3, .bytes [label]), (0x40000211, .nested [(0x500, Bytes.ofWord 0x40)]),
    (0x0, .bytes (Bytes.ofWord 3))]

def stocked : List Event := [
  .openSession 1 serialFlag,
  .addObject (signingKey 1),
  .addObject [(0x0, .bytes (Bytes.ofWord 3)), (0x40000211, .nested [])],
  .addObject (signingKey 2)]

def fetching : List Event := [
  .call 1 (.findObjectsNext 1),
  .call 1 (.destroyObject 3),
  .addObject (signingKey 3),
  .call 1 (.findObjectsNext 5),
  .call 1 (.findObjectsNext 2)]

theorem signingKeys_normal : signingKeys.Normal .bundled where
  distinct := by decide
  members := by
    have inner : Attribute.NormalAll .bundled [.scalar 0x500 false (.mechanism 0x40)] :=
      ⟨rfl, trivial⟩
    have all : Attribute.NormalAll .bundled signingKeys.attributes :=
      ⟨rfl, trivial, ⟨rfl, by decide, inner⟩, trivial⟩
    exact Attribute.normalAll_iff.mp all

theorem mem_stocked {h : Handle} :
    (∃ o, (new.run stocked).host.state.objects.get? h = some o ∧
      ∀ p ∈ signingKeys.wanted, p ∈ o) ↔ h ∈ [1, 3] := by
  constructor
  · rintro ⟨o, found, all⟩
    have entry : (h, o) ∈ (new.run stocked).host.state.objects.entries :=
      (Table.mem_entries_iff (distinct_run stocked)).mpr found
    have entry : (h, o) ∈ [(1, signingKey 1),
        (2, [(0x0, .bytes (Bytes.ofWord 3)), (0x40000211, .nested [])]), (3, signingKey 2)] := entry
    have nested : (0x40000211, Token.Value.nested [(0x500, Bytes.ofWord 0x40)]) ∈ o :=
      all _ (List.mem_of_getElem? (i := 1) rfl)
    simp only [List.mem_cons, Prod.mk.injEq, List.not_mem_nil, or_false] at entry
    rcases entry with ⟨rfl, rfl⟩ | ⟨rfl, rfl⟩ | ⟨rfl, rfl⟩
    · decide
    · exact absurd nested (by decide)
    · decide
  · intro member
    simp only [List.mem_cons, List.not_mem_nil, or_false] at member
    rcases member with rfl | rfl
    · exact ⟨signingKey 1, rfl, by decide⟩
    · exact ⟨signingKey 2, rfl, by decide⟩

/-- The search gives the two keys that were there when it began. -/
theorem search_is_complete_among_keys :
    let b := new.run stocked
    ∃ d, b.desks.get? 1 = some d ∧
      (∃ s host, Token.Standing 1 false False s host.state ∧ ∀ batches, 66 ≤ 64 * batches →
        Session.step Token.module (.findObjects batches signingKeys) d.session b.host =
          (.ok (.handles [1, 3]), s, host)) ∧
      ∃ d', (b.run (.call 1 (.findObjectsInit signingKeys) :: fetching)).desks.get? 1 = some d' ∧
        ofKind .findObjects d'.history = [(.findObjectsInit signingKeys, .ok .done),
          fetched 1 [1], fetched 5 [3], fetched 2 []] := by
  have calm : (new.run stocked).Calm := calm_run stocked (by simp [stocked])
  have present : (new.run stocked).desks.get? 1 =
      some (((new.run stocked).desks.get? 1).get rfl) := rfl
  have standing : Token.Standing 1 false False (((new.run stocked).desks.get? 1).get rfl).session
      (new.run stocked).host.state :=
    ⟨rfl, by decide, rfl, by simp [Token.Searched]; rfl⟩
  have flat : signingKeys.Flat := by
    simp [Template.Flat, signingKeys, Attribute.Flat, Attribute.isTemplate]
  obtain ⟨read, found, ascending, members, whole, parts⟩ :=
    search_is_complete calm present standing (distinct_run stocked) signingKeys
  have same : found = [1, 3] := by
    refine ascending.eq_of_mem_iff (by decide) fun h => ?_
    rw [members, read signingKeys_normal flat, mem_stocked]
  subst same
  have asked : ∀ e ∈ fetching, e.Fetches 1 := by
    intro e member
    simp only [fetching, List.mem_cons, List.not_mem_nil, or_false] at member
    rcases member with rfl | rfl | rfl | rfl | rfl
    all_goals
      refine ⟨trivial, fun c owned => ?_⟩
      obtain ⟨same, kind⟩ := Event.own?_eq_some.mp owned
      cases same
    · exact ⟨1, by decide, rfl⟩
    · cases kind
    · exact ⟨5, by decide, rfl⟩
    · exact ⟨2, by decide, rfl⟩
  obtain ⟨⟨d', present', history⟩, _⟩ := parts fetching asked
  exact ⟨_, present, whole, d', present', history⟩

end Bench

end Cryptoki
