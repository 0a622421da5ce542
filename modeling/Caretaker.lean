import Caretaker.Main
import Caretaker.Proofs.ManagedLink.Concurrency
import Caretaker.Proofs.Dispatch.Conduct
import Caretaker.Proofs.Environ.Segments
import Caretaker.Proofs.ManagedLink.Reading
import Caretaker.Proofs.Environ.Written
import Caretaker.Proofs.Environ.Skeleton
import Caretaker.Proofs.Dispatch.Environment
import Caretaker.Proofs.Dispatch.Concurrency
import Caretaker.Proofs.CommandLine.Forwarding
import Caretaker.Proofs.FileSystem.Passing
import Caretaker.Proofs.ManagedLink.Course
import Caretaker.Proofs.ManagedLink.Single
import Caretaker.Proofs.ManagedLink.Survival
import Caretaker.Proofs.ManagedLink.Failure
import Caretaker.Proofs.Environ.Nesting
import Caretaker.Proofs.ManagedLink.Tolerance
import Caretaker.Proofs.ManagedLink.Again
import Caretaker.Proofs.Dispatch.Table
import Caretaker.Proofs.Environ.Comments
import Caretaker.Proofs.Dispatch.Programs
import Caretaker.Proofs.Registry.Lookup
import Caretaker.Proofs.Environ.History
import Caretaker.Proofs.Environ.Arrangement
import Caretaker.Proofs.Layout.Candidates
import Caretaker.Proofs.Settings.Decoding
import Caretaker.Proofs.Listing.Alignment
import Caretaker.Proofs.Listing.Names
import Caretaker.Proofs.Environ.Grammar
import Caretaker.Proofs.Registry.Description
