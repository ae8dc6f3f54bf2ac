import DiagramEdit.CommandLine.Folder
import DiagramEdit.Main
import DiagramEdit.Proofs.Chart.Refinement
import DiagramEdit.Proofs.CommandLine.ExitCode
import DiagramEdit.Proofs.CommandLine.Reading
import DiagramEdit.Proofs.Header.Deletion
import DiagramEdit.Proofs.Header.Relabelling
import DiagramEdit.Proofs.Label.Description
import DiagramEdit.Proofs.Label.Participant
import DiagramEdit.Proofs.Label.Readability
import DiagramEdit.Proofs.Label.Scope
import DiagramEdit.Proofs.LineBreaks.Edit
import DiagramEdit.Proofs.Node.Edge
import DiagramEdit.Proofs.Node.LabelWords
import DiagramEdit.Proofs.Node.Numbering
import DiagramEdit.Proofs.Node.Lifetime
import DiagramEdit.Proofs.Node.Removal
import DiagramEdit.Proofs.Node.Repetition
import DiagramEdit.Proofs.Node.Reshaping
import DiagramEdit.Proofs.Node.Undo
import DiagramEdit.Proofs.Render.Configuring
import DiagramEdit.Proofs.Render.Run
import DiagramEdit.Proofs.Style.Independence
import DiagramEdit.Proofs.Style.Repetition
import DiagramEdit.Proofs.Style.Semicolon
import DiagramEdit.Proofs.Svg.Ascent
import DiagramEdit.Proofs.Svg.Identity
import DiagramEdit.Proofs.Svg.Pick
import DiagramEdit.Render.Transcript
import DiagramEdit.Text.Pattern.Lemmas
