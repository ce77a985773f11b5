import MusicMacro.Proofs.Performance

/-!
What counts of tokens in a performance. Inert tokens may be left out, and of a note only the letter,
the accidental and the dots are heard, so tokens with one essence are performed alike.
-/

namespace MusicMacro

namespace Token.Kind

/-- What counts of a token. Of a note the length does not, and no sign means a natural. -/
def essence? (coupled : Bool) (k : Kind) : Option Kind :=
  if k.isInert coupled then none
  else match k with
    | .note letter accidental _ dots =>
      some (.note letter (some (accidental.getD .natural)) none dots)
    | k => some k

/-- What counts of tokens: the inert ones are left out. -/
def essence (coupled : Bool) (ks : List Kind) : List Kind := ks.filterMap (essence? coupled)

/-- What counts where tempos do not is among what counts where they do. -/
theorem essence?_bind (k : Kind) : (k.essence? true).bind (essence? false) = k.essence? false := by
  cases k with
  | length argument | tempo argument => cases argument <;> rfl
  | _ => rfl

theorem essence_essence (ks : List Kind) : essence false (essence true ks) = essence false ks := by
  rw [essence, essence, essence, List.filterMap_filterMap]
  exact congrArg (List.filterMap · ks) (funext essence?_bind)

end Token.Kind

namespace State

variable {coupled : Bool} {s : State} {k k' : Token.Kind}

theorem isInert_of_essence?_eq_none (h : k.essence? coupled = none) :
    k.isInert coupled = true := by
  unfold Token.Kind.essence? at h
  split at h
  next hinert => exact hinert
  next => split at h <;> cases h

theorem step_essence? (h : k.essence? coupled = some k') :
    s.step coupled k' = s.step coupled k := by
  unfold Token.Kind.essence? at h
  split at h
  next => cases h
  next =>
    split at h
    next letter accidental argument dots =>
      cases h
      rfl
    next => rw [Option.some.inj h]

theorem perform_cons_of_isInert (h : k.isInert coupled = true) (ks : List Token.Kind) :
    s.perform coupled (k :: ks) = s.perform coupled ks := by
  rw [perform_ok (step_of_isInert h)]
  rfl

/-- Tokens are performed as what counts of them. -/
theorem perform_essence (coupled : Bool) (s : State) (ks : List Token.Kind) :
    s.perform coupled (Token.Kind.essence coupled ks) = s.perform coupled ks := by
  induction ks generalizing s with
  | nil => rfl
  | cons k ks ih =>
      cases hk : k.essence? coupled with
      | none =>
          rw [Token.Kind.essence, List.filterMap_cons_none hk,
            perform_cons_of_isInert (isInert_of_essence?_eq_none hk)]
          exact ih s
      | some k' =>
          have hstep := step_essence? (s := s) hk
          rw [Token.Kind.essence, List.filterMap_cons_some hk]
          cases hresult : s.step coupled k with
          | error refusal =>
              rw [hresult] at hstep
              rw [perform_error hstep, perform_error hresult]
          | ok result =>
              obtain ⟨next, effect⟩ := result
              have hlater := ih next
              rw [Token.Kind.essence] at hlater
              rw [hresult] at hstep
              rw [perform_ok hstep, perform_ok hresult, hlater]

end State

end MusicMacro
