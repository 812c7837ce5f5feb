import HeartKeypad.Main
import HeartKeypad.Proofs.Expression.Grammar
import HeartKeypad.Proofs.Calculator.Display
import HeartKeypad.Proofs.Show.Lives
import HeartKeypad.Proofs.Show.Batching
import HeartKeypad.Proofs.Show.Chronicle
import HeartKeypad.Proofs.Show.Faults
import HeartKeypad.Proofs.Number.Negation
import HeartKeypad.Proofs.Expression.LeadingZeros
import HeartKeypad.Proofs.Calculator.Typing
import HeartKeypad.Proofs.Show.Books
import HeartKeypad.Proofs.Calculator.Again
import HeartKeypad.Proofs.Stage.Answers
import HeartKeypad.Proofs.Calculator.ErrorMark
import HeartKeypad.Proofs.Session.Decorations
import HeartKeypad.Proofs.Show.Bystanders
import HeartKeypad.Proofs.Expression.Viable
import HeartKeypad.Proofs.Expression.Overflow
import HeartKeypad.Proofs.Expression.Tolerance
import HeartKeypad.Proofs.Session.Tally
import HeartKeypad.Proofs.Expression.Accuracy
import HeartKeypad.Proofs.Calculator.Results
import HeartKeypad.Proofs.Calculator.EasterEgg
import HeartKeypad.Proofs.Calculator.StickyError
import HeartKeypad.Proofs.Calculator.TypedDisplay
import HeartKeypad.Proofs.Calculator.Clearing
import HeartKeypad.Proofs.Calculator.Percent
import HeartKeypad.Proofs.Calculator.Backspace
import HeartKeypad.Proofs.Expression.Normal
import HeartKeypad.Proofs.Show.Replay
import HeartKeypad.Proofs.Show.Deadline
import HeartKeypad.Proofs.Session.Lines
import HeartKeypad.Proofs.Keypad.Origins
import HeartKeypad.Proofs.Heart.Landing
import HeartKeypad.Proofs.Settings.Layers
import HeartKeypad.Proofs.Settings.Embedded
import HeartKeypad.Proofs.Calculator.Alphabet
import HeartKeypad.Proofs.Session.Breaks
import HeartKeypad.Proofs.Json.Spellings
import HeartKeypad.Proofs.Expression.Juxtaposition
