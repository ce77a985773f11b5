import MusicMacro.Main
import MusicMacro.Proofs.Token.Division
import MusicMacro.Proofs.Token.Grammar
import MusicMacro.Proofs.Token.Grammar.Runs
import MusicMacro.Proofs.Token.Transcript
import MusicMacro.Proofs.Token.Grammar.Reading
import MusicMacro.Proofs.Numeric.Rounding
import MusicMacro.Proofs.Pace
import MusicMacro.Proofs.Performance
import MusicMacro.Proofs.Performance.History
import MusicMacro.Proofs.Run
import MusicMacro.Proofs.Text.Place
import MusicMacro.Proofs.Text.Slice
import MusicMacro.Proofs.Token.Boundary
import MusicMacro.Proofs.Token.Order
import MusicMacro.Proofs.Run.Course
import MusicMacro.Proofs.Run.Composition
import MusicMacro.Proofs.Token.Cut
import MusicMacro.Proofs.Token.Argument
import MusicMacro.Proofs.Token.Scan
import MusicMacro.Proofs.Token.Scan.Search
import MusicMacro.Proofs.Run.Playing
import MusicMacro.Proofs.Run.Acceptance
import MusicMacro.Proofs.Pace.Bounds
import MusicMacro.Proofs.Pace.Dots
import MusicMacro.Proofs.Tuning
import MusicMacro.Proofs.Performance.Bounds
import MusicMacro.Proofs.Run.Bounds
import MusicMacro.Proofs.Run.Instruments
import MusicMacro.Proofs.Run.Dots
import MusicMacro.Proofs.Token.Spacing
import MusicMacro.Proofs.Token.Blanking
import MusicMacro.Proofs.Token.Spelling
import MusicMacro.Proofs.Performance.Essence
import MusicMacro.Proofs.Performance.Coupling
import MusicMacro.Proofs.Run.Alike
import MusicMacro.Proofs.Run.Rewriting
import MusicMacro.Proofs.Run.Coupling
import MusicMacro.Proofs.Run.Journal
import MusicMacro.Proofs.Yaml.Word
import MusicMacro.Proofs.Yaml.Member
import MusicMacro.Proofs.Yaml.BlockMapping
import MusicMacro.Proofs.Yaml.Numeral
import MusicMacro.Proofs.Settings.Lines
import MusicMacro.Proofs.Settings.Agreement
import MusicMacro.Proofs.Run.Printing
import MusicMacro.Proofs.CommandLine
