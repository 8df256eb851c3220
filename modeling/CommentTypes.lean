import CommentTypes.Proofs.Config.Unchecked
import CommentTypes.Main
import CommentTypes.Proofs.Check.Visit
import CommentTypes.Proofs.Check.Compatible
import CommentTypes.Proofs.Tree.Order
import CommentTypes.Proofs.Check.Count
import CommentTypes.Proofs.Check.Cutoff
import CommentTypes.Total
import CommentTypes.Proofs.Text.Lines
import CommentTypes.Proofs.Check.Infer
import CommentTypes.Proofs.Source.Position
import CommentTypes.Proofs.Annotation.Parts
import CommentTypes.Proofs.Tree.Below
import CommentTypes.Proofs.Check.Silent
import CommentTypes.Proofs.Tree.Extend
import CommentTypes.Proofs.Check.Alike
import CommentTypes.Proofs.Check.Append
import CommentTypes.Proofs.Tree.Leading
import CommentTypes.Proofs.Typing.Verdict
import CommentTypes.Proofs.Typing.Union
import CommentTypes.Proofs.Check.Returned
import CommentTypes.Proofs.Source.Span
import CommentTypes.Proofs.Annotation.Reach
import CommentTypes.Proofs.Check.Frame
import CommentTypes.Proofs.Check.Vocabulary
import CommentTypes.Proofs.Check.Annotated
import CommentTypes.Proofs.Check.Genuine
import CommentTypes.Proofs.Json.Quoted
import CommentTypes.Proofs.Json.Layout
import CommentTypes.Proofs.Workspace.Follow
import CommentTypes.Proofs.Workspace.Saved
import CommentTypes.Proofs.Workspace.Walk
import CommentTypes.Proofs.Workspace.Discovery
import CommentTypes.Proofs.Run.Report
import CommentTypes.Proofs.Run.Each
import CommentTypes.Proofs.Run.Accounting
import CommentTypes.Proofs.Run.OneLine
import CommentTypes.Proofs.Check.LetterCase
import CommentTypes.Proofs.Tree.Stripped
import CommentTypes.Proofs.Typing.Admitted
import CommentTypes.Proofs.Typing.Transparent
import CommentTypes.Proofs.Run.Pool
import CommentTypes.Proofs.Source.Column
import CommentTypes.Proofs.Check.InOrder
import CommentTypes.Proofs.Annotation.Trailing
import CommentTypes.Proofs.Annotation.FirstPlace
import CommentTypes.Proofs.Annotation.TagPlaces
import CommentTypes.Proofs.Typing.FirstMention
import CommentTypes.Proofs.Annotation.Candidates
import CommentTypes.Proofs.Source.Faults
import CommentTypes.Proofs.Typing.History
import CommentTypes.Proofs.Typing.Functions
import CommentTypes.Proofs.Typing.Revised
import CommentTypes.Proofs.Tree.Listing
import CommentTypes.Proofs.Check.FirstMark
import CommentTypes.Proofs.Config.Fields
import CommentTypes.Proofs.Config.Layers
