import MusicMacro.Proofs.Yaml.BlockMapping
import MusicMacro.Proofs.Yaml.Numeral
import MusicMacro.Settings.Reading

/-!
Settings written on lines. Each line has the value of one field or is a remark, which is of no
field, and the fields that are left out are read as their defaults.
-/

namespace MusicMacro.Settings

open Yaml (Scalar)

/-- A remark on settings: a name that no field has, and a number. -/
structure Remark where
  letters : List Char
  digits : List Char
  lowercase : ∀ c ∈ letters, c.isLower = true
  decimal : ∀ c ∈ digits, c.isDigit = true
  digits_ne_nil : digits ≠ []

inductive Line
  | field (f : Field)
  | remark (r : Remark)

/-- The value of a field as it is written. -/
def Field.value (c : Settings) : Field → String
  | .initialOctave => Nat.repr c.initialOctave.toNat
  | .initialDuration => Nat.repr c.initialDuration.toNat
  | .tempoCoupling => if c.tempoCoupling then "true" else "false"

namespace Line

def name : Line → String
  | .field f => f.name
  | .remark r => "x-" ++ String.ofList r.letters

def value (c : Settings) : Line → String
  | .field f => f.value c
  | .remark r => String.ofList r.digits

def text (c : Settings) (l : Line) : String := l.name ++ ": " ++ l.value c ++ "\n"

def field? : Line → Option Field
  | .field f => some f
  | .remark _ => none

theorem name_isWord (l : Line) : Yaml.IsWord l.name.toList := by
  cases l with
  | field f => cases f <;> decide +kernel
  | remark r =>
      have hname : (remark r).name.toList = 'x' :: '-' :: r.letters := by simp [name]
      rw [hname]
      refine .cons (by decide) (List.forall_mem_cons.2 ⟨by decide, ?_⟩)
      intro c hc
      apply Yaml.isNameChar_of_isAlphanum
      change ((c.isUpper || c.isLower) || c.isDigit) = true
      rw [r.lowercase c hc, Bool.or_true, Bool.true_or]

theorem length_name_remark (r : Remark) : (remark r).name.length = r.letters.length + 2 := by
  have hfront : "x-".length = 2 := rfl
  rw [name, String.length_append, hfront, String.length_ofList, Nat.add_comm]

theorem isWord_of_isDigit {ds : List Char} (hne : ds ≠ []) (h : ∀ c ∈ ds, c.isDigit = true) :
    Yaml.IsWord ds := by
  apply Yaml.isWord_of_isAlphanum hne
  intro c hc
  change (c.isAlpha || c.isDigit) = true
  rw [h c hc, Bool.or_true]

theorem value_isWord (c : Settings) (l : Line) : Yaml.IsWord (l.value c).toList := by
  have hnumber (n : Nat) : Yaml.IsWord (Nat.repr n).toList := by
    rw [Nat.toList_repr]
    exact isWord_of_isDigit Nat.toDigits_ne_nil fun c hc => Yaml.isDigit_of_mem_toDigits hc
  cases l with
  | field f =>
      cases f with
      | initialOctave => exact hnumber _
      | initialDuration => exact hnumber _
      | tempoCoupling =>
          rw [value, Field.value]
          split <;> decide +kernel
  | remark r =>
      rw [value, String.toList_ofList]
      exact isWord_of_isDigit r.digits_ne_nil r.decimal

/-- A line as a member of a mapping. -/
def member (c : Settings) (l : Line) : Yaml.Member where
  key := l.name.toList
  value := (l.value c).toList
  key_isWord := l.name_isWord
  value_isWord := l.value_isWord c

variable (c : Settings) (l : Line)

theorem text_member : (l.member c).text = (l.text c).toList := by
  simp [Yaml.Member.text, member, text]

theorem keyScalar_member : (l.member c).keyScalar = { text := l.name } := by
  rw [Yaml.Member.keyScalar, member, String.ofList_toList]

theorem valueScalar_member : (l.member c).valueScalar = { text := l.value c } := by
  rw [Yaml.Member.valueScalar, member, String.ofList_toList]

end Line

/-- The text of lines. -/
def written (c : Settings) (lines : List Line) : String := String.join (lines.map (Line.text c))

theorem written_singleton (c : Settings) (l : Line) : c.written [l] = l.text c := by
  simp [written, String.join]

theorem toYaml_eq (c : Settings) : c.toYaml = c.written (Field.all.map .field) := by
  simp [toYaml, written, Field.all, String.join, Line.text, Line.name, Line.value, Field.value,
    String.append_assoc]

variable {c : Settings} {lines : List Line}

theorem written_eq (c : Settings) (lines : List Line) : c.written lines =
    String.ofList ((lines.map (Line.member c)).flatMap Yaml.Member.text) := by
  have htexts : (c.written lines).toList =
      (lines.map (Line.member c)).flatMap Yaml.Member.text := by
    induction lines with
    | nil => rfl
    | cons l lines ih =>
        have hcons : c.written (l :: lines) = l.text c ++ c.written lines := String.join_cons ..
        rw [hcons, String.toList_append, ih, List.map_cons, List.flatMap_cons, Line.text_member]
  rw [← htexts, String.ofList_toList]

/-- The draft in which some fields are set, each to its value in the settings. -/
def drafted (c : Settings) (fs : List Field) : Draft where
  initialOctave := if .initialOctave ∈ fs then some c.initialOctave else none
  initialDuration := if .initialDuration ∈ fs then some c.initialDuration else none
  tempoCoupling := if .tempoCoupling ∈ fs then some c.tempoCoupling else none

/-- The settings with defaults for all but some fields. -/
def keeping (c : Settings) (fs : List Field) : Settings where
  initialOctave := if .initialOctave ∈ fs then c.initialOctave else ({} : Settings).initialOctave
  initialDuration :=
    if .initialDuration ∈ fs then c.initialDuration else ({} : Settings).initialDuration
  tempoCoupling := if .tempoCoupling ∈ fs then c.tempoCoupling else ({} : Settings).tempoCoupling

theorem settings_drafted (fs : List Field) : (c.drafted fs).settings = c.keeping fs := by
  have hgetD {α : Type} {p : Prop} [Decidable p] (a b : α) :
      (if p then some a else none).getD b = if p then a else b := by split <;> rfl
  simp only [Draft.settings, drafted, keeping, hgetD]

theorem has_drafted (fs : List Field) (f : Field) : (c.drafted fs).has f = decide (f ∈ fs) := by
  cases f <;> unfold Draft.has drafted <;> dsimp only <;> split <;> simp_all

theorem word_repr (n : UInt32) (spot : Spot) :
    word (.scalar { text := Nat.repr n.toNat }) spot = .ok n := by
  have hplain : Scalar.speaksFor { text := Nat.repr n.toNat } .integer = true := rfl
  rw [word]
  dsimp only
  rw [hplain, if_pos rfl, Yaml.unsigned?_repr]
  dsimp only
  rw [if_pos n.toNat_lt, UInt32.ofNat_toNat]

theorem boolean_value (b : Bool) (spot : Spot) :
    boolean (.scalar { text := if b then "true" else "false" }) spot = .ok b := by
  cases b <;> rfl

theorem fill_drafted (fs : List Field) (f : Field) (spot : Spot) :
    (c.drafted fs).fill f (.scalar { text := f.value c }) spot = .ok (c.drafted (fs ++ [f])) := by
  cases f with
  | initialOctave =>
      rw [Draft.fill, Field.value, word_repr]
      simp [drafted, Except.map]
  | initialDuration =>
      rw [Draft.fill, Field.value, word_repr]
      simp [drafted, Except.map]
  | tempoCoupling =>
      rw [Draft.fill, Field.value, boolean_value]
      simp [drafted, Except.map]

theorem ofName?_field (f : Field) : Field.ofName? (Line.field f).name = some f := by
  cases f <;> decide

theorem ofName?_remark (r : Remark) : Field.ofName? (Line.remark r).name = none := by
  rw [Field.ofName?, List.find?_eq_none]
  intro f _ hf
  have hname : f.name.toList = 'x' :: '-' :: r.letters := by
    rw [eq_of_beq hf]
    simp [Line.name]
  cases f <;> cases (List.cons.inj hname).1

section
variable {flaw : Yaml.Flaw} {start m : Yaml.Mark} {hs : List Yaml.Head} {seen : List Field}

/-- The line of a field that has not been set yet sets it. -/
theorem readFrom_field {f : Field} (hf : f ∉ seen) :
    readFrom flaw start .key (c.drafted seen) (((Line.field f).member c).heads m ++ hs) =
      readFrom flaw start .key (c.drafted (seen ++ [f])) hs := by
  have hhas : (c.drafted seen).has f = false := by
    rw [has_drafted]
    exact decide_eq_false hf
  rw [Yaml.Member.heads, Line.keyScalar_member, Line.valueScalar_member, List.cons_append,
    List.singleton_append, readFrom]
  dsimp only
  rw [ofName?_field]
  dsimp only
  rw [hhas, if_neg Bool.false_ne_true, readFrom, Line.value]
  dsimp only
  rw [fill_drafted]

/-- A remark is passed over. -/
theorem readFrom_remark (r : Remark) (d : Draft) :
    readFrom flaw start .key d (((Line.remark r).member c).heads m ++ hs) =
      readFrom flaw start .key d hs := by
  rw [Yaml.Member.heads, Line.keyScalar_member, Line.valueScalar_member, List.cons_append,
    List.singleton_append, readFrom]
  dsimp only
  rw [ofName?_remark]
  rfl

theorem readFrom_lines (hfields : (seen ++ lines.filterMap Line.field?).Nodup) :
    readFrom flaw start .key (c.drafted seen)
        (Yaml.Member.headsFrom m (lines.map (Line.member c))) =
      .ok (c.drafted (seen ++ lines.filterMap Line.field?)) := by
  induction lines generalizing seen m with
  | nil =>
      rw [List.filterMap_nil, List.append_nil]
      rfl
  | cons l lines ih =>
      rw [List.map_cons, Yaml.Member.headsFrom]
      cases l with
      | field f =>
          rw [List.filterMap_cons_some (show Line.field? (.field f) = some f from rfl)] at hfields ⊢
          have hf : f ∉ seen := fun hmem =>
            (List.nodup_append.1 hfields).2.2 f hmem f List.mem_cons_self rfl
          rw [readFrom_field hf, ih, List.append_assoc]
          · rfl
          · rwa [List.append_assoc]
      | remark r =>
          rw [List.filterMap_cons_none (show Line.field? (.remark r) = none from rfl)] at hfields ⊢
          rw [readFrom_remark, ih hfields]

end

theorem ofDocument_written {l : Line} (h : ∀ x ∈ l :: lines, x.name.length ≤ 1024)
    (hfields : ((l :: lines).filterMap Line.field?).Nodup) :
    ofDocument (.ofText (c.written (l :: lines))) =
      .ok (c.keeping ((l :: lines).filterMap Line.field?)) := by
  have hshort : ∀ x ∈ l.member c :: lines.map (Line.member c), x.IsShort := by
    rw [← List.map_cons, List.forall_mem_map]
    exact h
  have hread : readFrom .ended {} .key (c.drafted [])
      (Yaml.Member.headsFrom {} ((l :: lines).map (Line.member c))) =
        .ok (c.drafted ([] ++ (l :: lines).filterMap Line.field?)) := readFrom_lines hfields
  rw [written_eq, List.map_cons, Yaml.Document.ofText_members _ _ hshort, ofDocument]
  change (readFrom .ended {} .key (c.drafted []) _ >>= fun d => Except.ok d.settings) = _
  rw [← List.map_cons, hread, List.nil_append, ← settings_drafted]
  rfl

theorem not_blank_written (c : Settings) (l : Line) (lines : List Line) :
    (c.written (l :: lines)).toList.all isBlank = false := by
  refine List.all_eq_false.2 ⟨':', ?_, by decide⟩
  simp [written_eq, Yaml.Member.text]

/-- Settings on lines are read as they were written, with defaults for the fields that no line has,
and then checked. -/
theorem ofYaml_written (h : ∀ l ∈ lines, l.name.length ≤ 1024)
    (hfields : (lines.filterMap Line.field?).Nodup) :
    let kept := c.keeping (lines.filterMap Line.field?)
    ofYaml (c.written lines) = kept.check.map fun _ => kept := by
  cases lines with
  | nil => rfl
  | cons l lines =>
      intro kept
      rw [ofYaml, not_blank_written, if_neg Bool.false_ne_true, ofDocument_written h hfields]
      change (kept.check >>= fun _ => Except.ok kept) = _
      cases kept.check <;> rfl

/-- A name on the first line that the colon does not reach is taken for a text. -/
theorem ofYaml_long_name {l : Line} (h : 1024 < l.name.length) (lines : List Line) :
    ofYaml (c.written (l :: lines)) =
      .error (complaint (.scalar { text := l.name }) .settings { mark := {} }) := by
  have hlong : ¬ (l.member c).IsShort := Nat.not_le.2 h
  have hname : l.name.isEmpty = false := by
    rw [← Bool.not_eq_true, String.isEmpty_iff]
    intro hempty
    rw [hempty] at h
    exact absurd h (by decide)
  have hdraft (flaw : Yaml.Flaw) : draft flaw [⟨.scalar { text := l.name }, {}, false⟩] =
      .error (complaint (.scalar { text := l.name }) .settings { mark := {} }) := by
    rw [draft]
    dsimp only
    rw [hname]
    rfl
  rw [ofYaml, not_blank_written, if_neg Bool.false_ne_true, written_eq, List.map_cons,
    Yaml.Document.ofText_long_key _ _ hlong, Line.keyScalar_member, ofDocument]
  dsimp only
  rw [hdraft]
  rfl

end MusicMacro.Settings
