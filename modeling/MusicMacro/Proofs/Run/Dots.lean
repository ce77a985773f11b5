import MusicMacro.Proofs.Pace.Dots
import MusicMacro.Proofs.Run.Notes
import MusicMacro.Proofs.Run.Playing
import MusicMacro.Proofs.Token.Dots

/-!
Durations of dotted notes in a run. The sum of all dots stops at the greatest word, but the dots
themselves are counted in a word before, and so the longest runs of them are taken for short ones.
-/

namespace MusicMacro

/-- Each event lasts for the duration of the state and, for every dot that its note counts, the half
of it, of two nearest integers the even one, cut off at the greatest word. A token counts the dots
that end its text up to multiples of 2 ^ 32. -/
theorem Run.event_duration (source : String) (settings : Settings)
    (h : settings.check = .ok ()) :
    let x := (TokenStream.ofText source).transcript
    ∃ r, start source settings = .ok r ∧
      (∀ n e, (r.after n).next.answer = .event e → ∃ (t : Token) (half : ℕ),
        let duration := (r.after (n + 1)).state.duration.toNat
        x.notes[n]? = some t ∧ IsNearestEven (duration / 2) half ∧
        e.duration.toNat = min (duration + t.writtenDots % 4294967296 * half) 4294967295) ∧
      (∀ t ∈ x.tokens, ∀ d, t.kind.dots? = some d → d.toNat = t.writtenDots % 4294967296) := by
  intro x
  obtain ⟨state, -, hstart⟩ := start_of_check source h
  refine ⟨_, hstart, ?_, ?_⟩
  · intro n e he
    obtain ⟨t, letter, accidental, argument, dots, hnote, hkind, rfl⟩ := ready_start.exists_note he
    have hmem : t ∈ x.tokens := List.mem_of_mem_filter (List.mem_of_getElem? hnote)
    have hdots : dots.toNat = t.writtenDots % 4294967296 :=
      TokenStream.toNat_dots hmem (by rw [hkind]; rfl)
    obtain ⟨half, -, hhalf, hduration⟩ := toNat_withDots
      (Run.after ⟨.ofText source, settings.tempoCoupling, state, false⟩ (n + 1)).state.duration dots
    rw [hdots] at hduration
    exact ⟨t, half, hnote, hhalf, hduration⟩
  · intro t ht d hd
    exact TokenStream.toNat_dots ht hd

/-- Half of 125 milliseconds is 62 and a half, and 62 is even. -/
theorem Run.event_duration_sixteenth :
    ({} : Settings).check = .ok () ∧ ∃ r, start "L16D." {} = .ok r ∧
      r.next.answer = .event ⟨18, 187⟩ ∧ ∃ half : ℕ, IsNearestEven (125 / 2) half ∧ half = 62 := by
  have hcheck : ({} : Settings).check = .ok () := rfl
  let begun : Run := ⟨.ofText "L16D.", false, ⟨⟨1, by decide, by decide⟩, 200, {}⟩, false⟩
  obtain ⟨r, hstart, hevents, -⟩ := event_duration "L16D." {} hcheck
  obtain rfl : begun = r := Except.ok.inj hstart
  have hanswer : begun.next.answer = .event ⟨18, 187⟩ := by decide +kernel
  have hduration : begun.next.run.state.duration = 125 := by decide +kernel
  have hnotes : (TokenStream.ofText "L16D.").transcript.notes[0]? =
      some ⟨.note .d none none 1, 'D', "D.", ⟨1, 4⟩⟩ := by decide +kernel
  obtain ⟨t, half, hnote, hhalf, hsum⟩ := hevents 0 _ hanswer
  obtain rfl := Option.some.inj (hnotes.symm.trans hnote)
  have hdots : Token.writtenDots ⟨.note .d none none 1, 'D', "D.", ⟨1, 4⟩⟩ = 1 := by
    decide +kernel
  rw [after, after, hduration] at hhalf hsum
  rw [hdots] at hsum
  refine ⟨hcheck, _, hstart, hanswer, half, hhalf, ?_⟩
  have hsixteenth : 187 = min (125 + 1 % 4294967296 * half) 4294967295 := hsum
  omega

/-- A letter with dots alone is one note. -/
theorem transcript_dotted (k : ℕ) :
    (TokenStream.ofText (String.ofList ('C' :: List.replicate k '.'))).transcript =
      ⟨[⟨.note .c none none (UInt32.ofNat k), 'C', String.ofList ('C' :: List.replicate k '.'), {}⟩],
        [], none⟩ := by
  have hparts : Operator.parts (.note .c) (List.replicate k '.') =
      ⟨[], [], List.replicate k '.', []⟩ := by
    have hsign : Accidental.isSign '.' = false := by decide
    have hdigit : Char.isDigit '.' = false := by decide
    simp [Operator.parts, Operator.takesSigns, Operator.takesDigits, Operator.takesDots, hsign,
      hdigit]
  have hreading : Reading.ofText 'C' (List.replicate k '.') =
      .token (.note .c none none (UInt32.ofNat k)) ('C' :: List.replicate k '.') [] := by
    have hop : Operator.ofChar? 'C' = some (.note .c) := rfl
    simp only [Reading.ofText, hop, hparts]
    simp [Token.argument, Operator.kind?, Operator.Parts.accidental, Operator.Parts.dotCount]
  rw [TokenStream.transcript_ofText, String.toList_ofList,
    pieces_token (by decide) hreading, pieces_nil]
  rfl

theorem trailingDots_dotted (k : ℕ) :
    Grammar.trailingDots ('C' :: List.replicate k '.') = k := by
  rw [Grammar.trailingDots, List.reverse_cons, List.reverse_replicate,
    List.takeWhile_append_of_pos (by simp), List.takeWhile_cons_of_neg (by decide),
    List.append_nil, List.length_replicate]

theorem eventsOf_dotted (k : ℕ) :
    let source := String.ofList ('C' :: List.replicate k '.')
    (∃ t, (TokenStream.ofText source).transcript.notes = [t] ∧
      t.writtenDots = k ∧ t.kind.dots? = some (UInt32.ofNat k)) ∧
    eventsOf source {} = .ok [⟨16, withDots 200 (UInt32.ofNat k)⟩] := by
  intro source
  constructor
  · rw [Transcript.notes, transcript_dotted]
    exact ⟨_, rfl, by rw [Token.writtenDots, String.toList_ofList, trailingDots_dotted], rfl⟩
  · have hstart : ({} : Settings).start = .ok ⟨⟨1, by decide, by decide⟩, 200, {}⟩ := rfl
    have hfrequency : Tuning.frequency ⟨1, by decide, by decide⟩ .c .natural = 16 := by
      decide +kernel
    rw [eventsOf_of_start hstart, transcript_dotted, ← hfrequency]
    rfl

/-- With one dot more than a word can count, a note is as long as without any. The sum of its dots
would be cut off at the greatest word. -/
theorem event_duration_uncounted :
    let source := String.ofList ('C' :: List.replicate 4294967296 '.')
    (∃ t, (TokenStream.ofText source).transcript.notes = [t] ∧
      t.writtenDots = 4294967296 ∧ t.kind.dots? = some 0) ∧
    eventsOf source {} = .ok [⟨16, 200⟩] ∧
    IsNearestEven (200 / 2) 100 ∧ min (200 + 4294967296 * 100) 4294967295 = 4294967295 := by
  intro source
  have hcount : UInt32.ofNat 4294967296 = 0 := by decide
  have hdots : withDots 200 0 = 200 := by decide +kernel
  -- The text is not written out: of its dots only the number is evaluated.
  obtain ⟨⟨t, hnotes, hwritten, hcounted⟩, hevents⟩ := eventsOf_dotted 4294967296
  rw [hcount] at hcounted hevents
  rw [hdots] at hevents
  refine ⟨⟨t, hnotes, hwritten, hcounted⟩, hevents, ?_, by norm_num⟩
  have hexact : (200 : ℚ) / 2 = (100 : ℤ) := by norm_num
  rw [hexact]
  exact roundEven_eq_iff.1 (roundEven_intCast 100)

end MusicMacro
