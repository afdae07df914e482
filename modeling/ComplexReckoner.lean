import ComplexReckoner.Main
import ComplexReckoner.Proofs.Arithmetic
import ComplexReckoner.Proofs.Balance
import ComplexReckoner.Proofs.Bindings
import ComplexReckoner.Proofs.Blanks
import ComplexReckoner.Proofs.Calculation
import ComplexReckoner.Proofs.Canonical
import ComplexReckoner.Proofs.Commuting
import ComplexReckoner.Proofs.Descent
import ComplexReckoner.Proofs.InputLines
import ComplexReckoner.Proofs.Limits
import ComplexReckoner.Proofs.Listings
import ComplexReckoner.Proofs.Names
import ComplexReckoner.Proofs.Numerals
import ComplexReckoner.Proofs.Parentheses
import ComplexReckoner.Proofs.Priority
import ComplexReckoner.Proofs.Scripts
import ComplexReckoner.Proofs.Shapes
import ComplexReckoner.Proofs.ShortestDecimal
import ComplexReckoner.Proofs.Substitution
import ComplexReckoner.Proofs.Tokens
import ComplexReckoner.Proofs.Writing
