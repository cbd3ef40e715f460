import Cryptoki.Proofs.Session.Attributes

/-!
When a reading of attributes succeeds. A module that answers faithfully, and fails for nothing but
secrets and unknown types, is read to the end; then all that matters is whether the values can be
decoded.
-/
namespace Cryptoki

open Wire

/-- Not a failure, or one that does not end a reading. -/
def Forgiven (r : Result Unit) : Prop :=
  ∀ e, r = .error e → e.rv = Return.attributeSensitive ∨ e.rv = Return.attributeTypeInvalid

/-- Asked to fill an array that suits what the object stores, the module does so, and fails for
nothing but secrets and unknown types. -/
structure Forthcoming {σ : Type} (M : Module σ) (session object : Handle) (o : StoredObject)
    (keeps : σ → Prop) : Prop extends Faithful M session object o keeps where
  forgives : ∀ a, keeps a → ∀ entries,
    Stored.SuitsAll (entries.map fun e => o.value e.head.type) entries →
    Forgiven (M.answer (.getAttributeValue session object entries) a).1.result

namespace Session

open SessionM

variable {σ : Type} {M : Module σ} {object : Handle} {o : StoredObject} {keeps : σ → Prop}
  {s : Session} {h : Host σ}

theorem readAttributes_of_forgiven {entries : List Entry}
    (forgiven : Forgiven (M.answer (.getAttributeValue s.handle object entries) h.state).1.result) :
    ∃ after secret h', readAttributes M object entries s h = ((.ok (after, secret), s), h') := by
  have handle : (ownHandle : SessionM σ Handle) s h = ((.ok s.handle, s), h) := rfl
  rw [readAttributes, bind_of_ok handle, bind_of_ok (askAnswer_run _)]
  cases result : (M.answer (.getAttributeValue s.handle object entries) h.state).1.result with
  | ok done => exact ⟨_, _, _, rfl⟩
  | error e =>
    by_cases secret : e.rv = Return.attributeSensitive
    · simp only [secret, ↓reduceIte]
      exact ⟨_, _, _, rfl⟩
    · have unknown := (forgiven e result).resolve_left secret
      simp only [if_neg secret, if_pos unknown]
      exact ⟨_, _, _, rfl⟩

theorem readAttributes_forthcoming (forthcoming : Forthcoming M s.handle object o keeps)
    (kept : keeps h.state) {types : List Code} {entries : List Entry}
    (asked : entries.map (·.head.type) = types)
    (suits : Stored.SuitsAll (types.map o.value) entries) :
    ∃ secret h', readAttributes M object entries s h =
        ((.ok (Stored.fillAll (types.map o.value) entries, secret), s), h') ∧ keeps h'.state := by
  have values := StoredObject.asked_eq (o := o) asked
  obtain ⟨after, secret, h', run⟩ := readAttributes_of_forgiven
    (forthcoming.forgives h.state kept entries (values ▸ suits))
  obtain ⟨filled, _, kept'⟩ :=
    readAttributes_faithful forthcoming.toFaithful kept asked suits run
  exact ⟨secret, h', filled ▸ run, kept'⟩

theorem readPasses_forthcoming (forthcoming : Forthcoming M s.handle object o keeps)
    (fits : ∀ v ∈ o, v.Fits .bundled) (types : List Code) (passes depth : Nat)
    (kept : keeps h.state) :
    ∃ after secret h', readPasses M object passes
        (Stored.arrayBefore .bundled depth (types.map o.value)) s h =
      ((.ok (after, secret), s), h') ∧ keeps h'.state := by
  induction passes generalizing depth h with
  | zero => exact ⟨_, _, h, rfl, kept⟩
  | succ passes ih =>
    have each := StoredObject.fits_values fits types
    have asked :
        (Stored.arrayBefore .bundled depth (types.map o.value)).map (·.head.type) = types :=
      (Stored.types_arrayBefore depth _).trans (o.types_values types)
    obtain ⟨secret, h₁, first, kept₁⟩ := readAttributes_forthcoming forthcoming kept asked
      (Stored.suitsAll_arrayBefore each depth)
    rw [readPasses, bind_of_ok first]
    simp only [Stored.allocate_fillAll_arrayBefore each depth]
    have room : (reserve (Wire.extent (Stored.arrayOf .bundled depth (types.map o.value))) :
        SessionM σ Unit) s h₁ = ((.ok (), s), h₁) := rfl
    rw [bind_of_ok room]
    have made : ofResult (.ok ((types.map o.value).any (Stored.reaches depth))) s h₁ =
        ((.ok ((types.map o.value).any (Stored.reaches depth)), s), h₁) := rfl
    rw [bind_of_ok made]
    cases (types.map o.value).any (Stored.reaches depth) with
    | false => exact ⟨_, secret, h₁, rfl, kept₁⟩
    | true =>
      obtain ⟨after, later, h₂, rest, kept₂⟩ := ih (depth + 1) kept₁
      refine ⟨after, secret || later, h₂, ?_, kept₂⟩
      exact bind_of_ok rest

theorem flagSecrets_forthcoming (forthcoming : Forthcoming M s.handle object o keeps)
    (types : List Code) (kept : keeps h.state) (t : Template) :
    ∃ after h', flagSecrets M object types t s h = ((.ok after, s), h') := by
  induction types generalizing t h with
  | nil => exact ⟨t, h, rfl⟩
  | cons type rest ih =>
    have suits : Stored.SuitsAll ([type].map o.value) (query [type]) :=
      ⟨Stored.suits_blank _ _ _, trivial⟩
    have asked : (query [type]).map (·.head.type) = [type] := rfl
    obtain ⟨secret, h₁, first, kept₁⟩ := readAttributes_forthcoming forthcoming kept asked suits
    rw [flagSecrets, bind_of_ok first]
    exact ih kept₁ _

/-- The attributes can be read just when what is seen of the stored values can be decoded. -/
theorem getAttributes_succeeds_iff (forthcoming : Forthcoming M s.handle object o keeps)
    (kept : keeps h.state) (fits : ∀ v ∈ o, v.Fits .bundled) (types : List Code) :
    (∃ t, (getAttributes M object types s h).1.1 = .ok t) ↔
      ∃ t, o.readingTo 2 .bundled types = .ok t := by
  have each := StoredObject.fits_values fits types
  constructor
  · intro succeeds
    obtain ⟨t, done⟩ := succeeds
    rcases run : getAttributes M object types s h with ⟨⟨r, s'⟩, h'⟩
    rw [run] at done
    cases done
    exact ⟨t.bare, getAttributes_faithful forthcoming.toFaithful kept fits run⟩
  · intro decodes
    obtain ⟨t, decoded⟩ := decodes
    -- That the readings succeed says nothing of the array; what it is then follows as for any module.
    obtain ⟨entries, secret, h₁, passes, kept₁⟩ :=
      readPasses_forthcoming forthcoming fits types 3 0 kept
    have final : entries = Stored.arrayOf .bundled 2 (types.map o.value) :=
      (readPasses_faithful forthcoming.toFaithful fits types 2 0 kept passes).trans
        (by rw [Nat.zero_add])
    have whole := Stored.ofArrayUnder_arrayOf each 2
    rw [← final, List.map_map] at whole
    obtain ⟨u, read, _⟩ := Result.map_eq_ok.mp (whole.trans decoded)
    have found : ofResult (Template.ofArray entries) s h₁ = ((.ok u, s), h₁) := by
      rw [Template.ofArray, read]
      rfl
    rw [getAttributes, query_eq o types, attributePasses, bind_of_ok passes]
    dsimp only
    rw [bind_of_ok found]
    cases secret with
    | false => exact ⟨u, rfl⟩
    | true =>
      obtain ⟨after, h₂, flagged⟩ := flagSecrets_forthcoming forthcoming
        ((u.attributes.filter (!·.isPresent)).map (·.type)) kept₁ u
      exact ⟨after, by rw [if_pos rfl, flagged]⟩

end Session

end Cryptoki
