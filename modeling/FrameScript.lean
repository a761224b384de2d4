import FrameScript.Layout.References
import FrameScript.Main
import FrameScript.Proofs.Acceptance
import FrameScript.Proofs.Actions
import FrameScript.Proofs.ActiveCalls
import FrameScript.Proofs.Admission
import FrameScript.Proofs.Assignments
import FrameScript.Proofs.Confined
import FrameScript.Proofs.Conversions
import FrameScript.Proofs.Encoding
import FrameScript.Proofs.Entry
import FrameScript.Proofs.Equality
import FrameScript.Proofs.FollowUps
import FrameScript.Proofs.Forwarding
import FrameScript.Proofs.Frames
import FrameScript.Proofs.Inspection
import FrameScript.Proofs.JsonConvertors
import FrameScript.Proofs.Lexical
import FrameScript.Proofs.MapHistory
import FrameScript.Proofs.NullReferences
import FrameScript.Proofs.NullTags
import FrameScript.Proofs.Nulls
import FrameScript.Proofs.OperatorTables
import FrameScript.Proofs.Registration
import FrameScript.Proofs.Rendering
import FrameScript.Proofs.Scoping
import FrameScript.Proofs.Structure
import FrameScript.Proofs.Termination
import FrameScript.Proofs.ValueSlots
import FrameScript.Source.Encode
