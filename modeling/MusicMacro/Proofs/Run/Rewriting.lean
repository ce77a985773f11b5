import MusicMacro.Proofs.Performance.Essence
import MusicMacro.Proofs.Run.Alike
import MusicMacro.Proofs.Token.Blanking
import MusicMacro.Proofs.Token.Spelling

/-!
Texts rewritten. What stands between the tokens of a text, how its tokens are spelled, and tokens
without effect may be changed, and the text is performed as before.
-/

namespace MusicMacro

/-- The tokens of a text that can be read may be written out again with any separators around them,
or with none. The same tokens are read then, no character is skipped, and the text is performed as
before. A text from which all else is dropped has them too, and nothing more is dropped from it. -/
theorem tokensOf_spaced (source : String) {tokens : List Token}
    (h : tokensOf source = .ok tokens) :
    (∀ gap : ℕ → String, (∀ i, ∀ c ∈ (gap i).toList, isSeparator c = true) →
      let again := spaced gap (tokens.map Token.text)
      (∃ ts, tokensOf again = .ok ts ∧ ts.map Token.content = tokens.map Token.content) ∧
      (TokenStream.ofText again).transcript.skipped = [] ∧
      ∀ settings, eventsOf again settings = eventsOf source settings) ∧
    condensed (condensed source) = condensed source ∧
    ∃ ts, tokensOf (condensed source) = .ok ts ∧
      ts.map Token.content = tokens.map Token.content := by
  have hspaced : ∀ gap : ℕ → String, (∀ i, ∀ c ∈ (gap i).toList, isSeparator c = true) →
      ∃ ts, (TokenStream.ofText (spaced gap (tokens.map Token.text))).transcript = ⟨ts, [], none⟩ ∧
        ts.map Token.content = tokens.map Token.content := by
    intro gap hgap
    obtain ⟨-, rfl⟩ := tokensOf_eq_ok.1 h
    exact TokenStream.transcript_spaced source hgap
  obtain ⟨hfault, htokens⟩ := tokensOf_eq_ok.1 h
  constructor
  · intro gap hgap again
    obtain ⟨ts, htranscript, hcontent⟩ := hspaced gap hgap
    have hts : tokensOf again = .ok ts :=
      tokensOf_eq_ok.2 ⟨by rw [htranscript], by rw [htranscript]⟩
    refine ⟨⟨ts, hts, hcontent⟩, by rw [htranscript], ?_⟩
    intro settings
    have halike : (TokenStream.ofText again).Alike (TokenStream.ofText source) := by
      constructor
      · rw [htranscript, htokens, map_kind_of_content hcontent]
      · rw [htranscript, hfault]
    rw [eventsOf_eq, eventsOf_eq, halike.performance_eq]
  · have hnone : ∀ i : ℕ, ∀ c ∈ "".toList, isSeparator c = true := by
      intro i c hc
      cases hc
    obtain ⟨ts, htranscript, hcontent⟩ := hspaced (fun _ => "") hnone
    rw [← condensed_eq h] at htranscript
    have hts : tokensOf (condensed source) = .ok ts :=
      tokensOf_eq_ok.2 ⟨by rw [htranscript], by rw [htranscript]⟩
    refine ⟨?_, ts, hts, hcontent⟩
    rw [condensed_eq hts, map_text_of_content hcontent, ← condensed_eq h]

/-- A sharp and a character that is skipped stand behind notes, and the gap between the notes is
closed. -/
theorem tokensOf_spaced_sharp :
    let tokens : List Token := [⟨.note .c (some .sharp) none 0, 'C', "C#", ⟨1, 1⟩⟩,
      ⟨.note .b none (some 8) 1, 'B', "B8.", ⟨1, 5⟩⟩]
    tokensOf "C# bB8. ?" = .ok tokens ∧
      (∃ ts, tokensOf "C#;B8." = .ok ts ∧ ts.map Token.content = tokens.map Token.content) ∧
      condensed "C# bB8. ?" = "C#B8." ∧ condensed "C#B8." = "C#B8." := by
  intro tokens
  have htokens : tokensOf "C# bB8. ?" = .ok tokens := by decide +kernel
  have hcondensed : condensed "C# bB8. ?" = "C#B8." := by decide +kernel
  obtain ⟨hspaced, hagain, -⟩ := tokensOf_spaced "C# bB8. ?" htokens
  let gap : ℕ → String := fun i => if i = 1 then ";" else ""
  have hgap : ∀ i, ∀ c ∈ (gap i).toList, isSeparator c = true := by
    intro i c hc
    unfold gap at hc
    split at hc
    · obtain rfl : c = ';' := List.mem_singleton.1 hc
      rfl
    · cases hc
  rw [hcondensed] at hagain
  exact ⟨htokens, (hspaced gap hgap).1, hcondensed, hagain⟩

/-- A text with a space for each character that is skipped in it. -/
def withBlanks (source : String) : String :=
  let places := (TokenStream.ofText source).transcript.skipped.map Skipped.place
  String.ofList (blanked places {} source.toList)

/-- A space does what a skipped character does. With spaces in their places no character of a text
is skipped, its tokens stay where they are, as does its fault, and after any number of requests a
run shows the same. -/
theorem transcript_blanked (source : String) :
    (TokenStream.ofText (withBlanks source)).transcript =
      { (TokenStream.ofText source).transcript with skipped := [] } ∧
    ∀ settings, (Run.start (withBlanks source) settings).map Run.shown =
      (Run.start source settings).map Run.shown := by
  have htranscript : (TokenStream.ofText (withBlanks source)).transcript =
      { (TokenStream.ofText source).transcript with skipped := [] } := by
    rw [withBlanks, TokenStream.transcript_ofText, TokenStream.transcript_ofText,
      String.toList_ofList]
    exact (marks_skippedPlaces {} source.toList).ofPieces_blanked.2
  have halike : (TokenStream.ofText (withBlanks source)).Alike (TokenStream.ofText source) := by
    constructor
    · rw [htranscript]
    · rw [htranscript]
  exact ⟨htranscript, halike.shown_eq⟩

/-- No meaning, a sign without an operator before it, and an operator without its number. -/
example : withBlanks "C?#N D" = "C    D" := by decide +kernel

def Fault.folded : Fault → Fault
  | .lexical fault => .lexical fault.folded
  | fault => fault

/-- A course, whatever the case of an operator in its fault. -/
def Course.folded (c : Course) : Course := { c with fault := c.fault.map Fault.folded }

theorem Transcript.course_folded {x y : Transcript} (h : x.outline = y.outline) (coupled : Bool)
    (s : State) : (x.course coupled s).folded = (y.course coupled s).folded := by
  obtain ⟨htokens, -, hfault⟩ := Outline.mk.inj h
  have hkinds : x.tokens.map Token.kind = y.tokens.map Token.kind := by
    have hfirst := congrArg (List.map Prod.fst) htokens
    rw [List.map_map, List.map_map] at hfirst
    exact hfirst
  have hfolded : ∀ z : Transcript, (z.fault.map Fault.lexical).map Fault.folded =
      (z.fault.map LexicalFault.folded).map Fault.lexical := by
    intro z
    rw [Option.map_map, Option.map_map]
    rfl
  simp only [Course.folded, course, hkinds, Option.map_or, hfolded, hfault]

/-- Texts that differ in spelling alone have tokens of the same kinds at the same places, skipped
characters at the same places, and faults that differ at most in the case of an operator. They are
performed alike. -/
theorem performance_respelled {a b : String} (h : Respelled a.toList b.toList) :
    let x := (TokenStream.ofText a).transcript
    let y := (TokenStream.ofText b).transcript
    x.outline = y.outline ∧
    (∀ f g, x.fault = some f → y.fault = some g → f.message = g.message ∨
      ∃ c d, c.toUpper = d.toUpper ∧ f.cause = .missingArgument c ∧
        g.cause = .missingArgument d) ∧
    ∀ settings,
      (performance a settings).map Course.folded = (performance b settings).map Course.folded := by
  intro x y
  have houtline : x.outline = y.outline := by
    unfold x y
    rw [TokenStream.transcript_ofText, TokenStream.transcript_ofText]
    exact h.outline_eq
  refine ⟨houtline, ?_, ?_⟩
  · intro f g hf hg
    have hfolded := congrArg Outline.fault houtline
    rw [Transcript.outline, Transcript.outline, hf, hg] at hfolded
    exact LexicalFault.message_of_folded (Option.some.inj hfolded)
  · intro settings
    rw [performance_eq, performance_eq]
    cases settings.start with
    | error fault => rfl
    | ok state => exact congrArg Except.ok (Transcript.course_folded houtline _ state)

/-- A flat that only the first of two signs writes, a sign that is skipped, and an octave that lacks
its argument. -/
theorem performance_respelled_bare_octave :
    Respelled "o5 Cb#\n+O".toList "O5;C-+\n#o".toList ∧
      (TokenStream.ofText "o5 Cb#\n+O").transcript.outline =
        (TokenStream.ofText "O5;C-+\n#o").transcript.outline ∧
      (performance "o5 Cb#\n+O" {}).map Course.folded =
        (performance "O5;C-+\n#o" {}).map Course.folded := by
  have hspelled : Respelled "o5 Cb#\n+O".toList "O5;C-+\n#o".toList := by
    decide +kernel
  obtain ⟨houtline, -, hperformance⟩ := performance_respelled hspelled
  exact ⟨hspelled, houtline, hperformance {}⟩

/-- Tokens that agree in what counts of them are performed alike from any state, and so are texts
with such tokens. If they agree where tempos count, they agree where tempos do not. -/
theorem perform_of_essence :
    (∀ (coupled : Bool) (s : State) (ks ls : List Token.Kind),
      Token.Kind.essence coupled ks = Token.Kind.essence coupled ls →
      s.perform coupled ks = s.perform coupled ls) ∧
    ∀ (a b : String) (ts us : List Token), tokensOf a = .ok ts → tokensOf b = .ok us →
      (∀ settings : Settings,
        Token.Kind.essence settings.tempoCoupling (ts.map Token.kind) =
          Token.Kind.essence settings.tempoCoupling (us.map Token.kind) →
        eventsOf a settings = eventsOf b settings) ∧
      (Token.Kind.essence true (ts.map Token.kind) = Token.Kind.essence true (us.map Token.kind) →
        ∀ settings, eventsOf a settings = eventsOf b settings) := by
  have hperform : ∀ (coupled : Bool) (s : State) (ks ls : List Token.Kind),
      Token.Kind.essence coupled ks = Token.Kind.essence coupled ls →
      s.perform coupled ks = s.perform coupled ls := by
    intro coupled s ks ls h
    rw [← State.perform_essence, h, State.perform_essence]
  refine ⟨hperform, ?_⟩
  intro a b ts us ha hb
  obtain ⟨hfault, rfl⟩ := tokensOf_eq_ok.1 ha
  obtain ⟨hfault', rfl⟩ := tokensOf_eq_ok.1 hb
  have hevents : ∀ settings : Settings,
      Token.Kind.essence settings.tempoCoupling
          ((TokenStream.ofText a).transcript.tokens.map Token.kind) =
        Token.Kind.essence settings.tempoCoupling
          ((TokenStream.ofText b).transcript.tokens.map Token.kind) →
      eventsOf a settings = eventsOf b settings := by
    intro settings h
    rw [eventsOf_eq, eventsOf_eq, performance_eq, performance_eq]
    simp only [Transcript.course, hfault, hfault', hperform _ _ _ _ h]
  refine ⟨hevents, ?_⟩
  intro h settings
  apply hevents
  cases settings.tempoCoupling with
  | true => exact h
  | false => rw [← Token.Kind.essence_essence, h, Token.Kind.essence_essence]

/-- A dotted rest, a shift, the length of a note and its natural make no difference. -/
theorem perform_of_essence_rest :
    let ts : List Token := [⟨.rest (some 8) 1, 'R', "R8.", ⟨1, 1⟩⟩,
      ⟨.tempo (some 64), 'T', "T64", ⟨1, 5⟩⟩, ⟨.note .c none none 1, 'C', "C.", ⟨1, 9⟩⟩]
    let us : List Token := [⟨.tempo (some 64), 'T', "T64", ⟨1, 1⟩⟩,
      ⟨.shift .up, '>', ">", ⟨1, 5⟩⟩, ⟨.note .c none (some 2) 1, 'C', "C2.", ⟨1, 6⟩⟩]
    tokensOf "R8. T64 C." = .ok ts ∧ tokensOf "T64 >C2." = .ok us ∧
      Token.Kind.essence true (ts.map Token.kind) = Token.Kind.essence true (us.map Token.kind) ∧
      (∀ s : State, s.perform true (ts.map Token.kind) = s.perform true (us.map Token.kind)) ∧
      eventsOf "R8. T64 C." {} = eventsOf "T64 >C2." {} := by
  intro ts us
  have hts : tokensOf "R8. T64 C." = .ok ts := by decide +kernel
  have hus : tokensOf "T64 >C2." = .ok us := by decide +kernel
  have hessence : Token.Kind.essence true (ts.map Token.kind) =
      Token.Kind.essence true (us.map Token.kind) := by decide
  obtain ⟨hperform, hevents⟩ := perform_of_essence
  exact ⟨hts, hus, hessence, fun s => hperform true s _ _ hessence,
    (hevents _ _ ts us hts hus).2 hessence {}⟩

end MusicMacro
