import RetryDelay.Options.Environment
import RetryDelay.Options.Document
import RetryDelay.Session
import RetryDelay.Proofs.Rounding
import RetryDelay.Proofs.Nominal
import RetryDelay.Proofs.Shortening
import RetryDelay.Proofs.Delay
import RetryDelay.Proofs.Doubling
import RetryDelay.Proofs.Deviation
import RetryDelay.Proofs.Spread
import RetryDelay.Proofs.Positivity
import RetryDelay.Proofs.Draws
import RetryDelay.Proofs.Comparison
import RetryDelay.Proofs.Ceiling
import RetryDelay.Proofs.Pace
import RetryDelay.Proofs.Loop
import RetryDelay.Proofs.Budget
import RetryDelay.Proofs.Overflow
import RetryDelay.Proofs.Independence
import RetryDelay.Proofs.Session
import RetryDelay.Proofs.Numbering
import RetryDelay.Proofs.Acceptance
import RetryDelay.Proofs.Calls
import RetryDelay.Proofs.Conversion
import RetryDelay.Proofs.Decimal
import RetryDelay.Proofs.Environment
import RetryDelay.Proofs.Events
import RetryDelay.Proofs.Shortest
import RetryDelay.Proofs.Numeral
import RetryDelay.Proofs.Exponent
import RetryDelay.Proofs.PlainNumber
import RetryDelay.Proofs.Variables
import RetryDelay.Proofs.JsonNumber
import RetryDelay.Proofs.JsonGrammar
import RetryDelay.Proofs.Entries
import RetryDelay.Proofs.JsonReading
import RetryDelay.Proofs.RoundTrip
import RetryDelay.Proofs.TomlScalar
import RetryDelay.Proofs.TomlRendering
import RetryDelay.Proofs.TomlReading
import RetryDelay.Proofs.Documents
import RetryDelay.Proofs.Casts
import RetryDelay.Proofs.Reports
