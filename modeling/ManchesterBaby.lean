import ManchesterBaby.Main
import ManchesterBaby.Proofs.CanonicalField
import ManchesterBaby.Proofs.Wrapping
import ManchesterBaby.Proofs.Machine.BitMachine
import ManchesterBaby.Proofs.Machine.Dump
import ManchesterBaby.Proofs.Machine.LastWrite
import ManchesterBaby.Proofs.Machine.Unread
import ManchesterBaby.Proofs.Machine.Widening
import ManchesterBaby.Proofs.Dialects
import ManchesterBaby.Proofs.Source.Concatenation
import ManchesterBaby.Proofs.Source.Grammar
import ManchesterBaby.Proofs.Link.Concatenation
import ManchesterBaby.Proofs.Link.Encodings
import ManchesterBaby.Proofs.Link.Renaming
import ManchesterBaby.Proofs.Link.Suggestions
import ManchesterBaby.Proofs.Assembler.Locations
import ManchesterBaby.Proofs.Assembler.Refusal
import ManchesterBaby.Proofs.Assembler.Transcript
import ManchesterBaby.Proofs.Command.Overriding
import ManchesterBaby.Proofs.Configuration
import ManchesterBaby.Proofs.Listing.Columns
import ManchesterBaby.Proofs.SymbolReport
import ManchesterBaby.Proofs.Reassembly
