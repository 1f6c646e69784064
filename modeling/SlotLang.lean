import SlotLang.Abi
import SlotLang.Main
import SlotLang.Proofs.Buffers
import SlotLang.Proofs.Resolution
import SlotLang.Sample
import SlotLang.Session
import SlotLang.Proofs.Safety
import SlotLang.Proofs.Meaning
import SlotLang.Proofs.Handles
import SlotLang.Proofs.CSyntax
import SlotLang.Proofs.CBody
import SlotLang.Proofs.BackEnds
import SlotLang.Proofs.Accounting
import SlotLang.Proofs.Atomicity
import SlotLang.Proofs.Declarations
import SlotLang.Proofs.Grammar
import SlotLang.Proofs.Lexemes
import SlotLang.Proofs.Limits
import SlotLang.Proofs.Panics
import SlotLang.Proofs.Isolation
import SlotLang.Proofs.Conservation
import SlotLang.Proofs.InitialMemory
import SlotLang.Proofs.Layout
import SlotLang.Proofs.Reexecution
import SlotLang.Proofs.Relexing
import SlotLang.Proofs.Positions
import SlotLang.Proofs.Progress
import SlotLang.Proofs.Capacity
import SlotLang.Proofs.Creation
import SlotLang.Proofs.Culprits
import SlotLang.Proofs.Policies
import SlotLang.Proofs.Outcomes
import SlotLang.Proofs.Outlines
import SlotLang.Proofs.LastWrite
import SlotLang.Proofs.Scopes
import SlotLang.Proofs.Emptying
import SlotLang.Proofs.Splicing
import SlotLang.Proofs.Renaming
import SlotLang.Proofs.Concatenation
import SlotLang.Proofs.Literals
import SlotLang.Proofs.Bindings
import SlotLang.Proofs.ManyDeclarations
import SlotLang.Proofs.Listings
import SlotLang.Proofs.Allocators
import SlotLang.Proofs.Cursors
import SlotLang.Proofs.Sinks
