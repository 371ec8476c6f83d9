import TabStore.CommandLine
import TabStore.Main
import TabStore.Proofs.Engine.Repeated
import TabStore.Proofs.Items.Joined
import TabStore.Proofs.Items.Compacted
import TabStore.Proofs.Table.Swapped
import TabStore.Proofs.Condition.Order
import TabStore.Proofs.Statement.Referenced
import TabStore.Proofs.Statement.Restyled
import TabStore.Proofs.Condition.Composition
import TabStore.Proofs.Condition.InOrder
import TabStore.Proofs.Condition.Reserved
import TabStore.Proofs.Engine.Interrupted
import TabStore.Proofs.Engine.Refused
import TabStore.Proofs.Engine.Selections
import TabStore.Proofs.Engine.Sessions
import TabStore.Proofs.Memory.Reachable
import TabStore.Proofs.Statement.WellFormed
import TabStore.Proofs.Statement.Where
import TabStore.Proofs.Memory.Deeds
import TabStore.Proofs.Memory.Numbering
import TabStore.Proofs.Files.Frame
import TabStore.Proofs.Table.Footprint
import TabStore.Proofs.Engine.Isolated
import TabStore.Proofs.Text.Marks
import TabStore.Proofs.Error
import TabStore.Proofs.Statement.Refusal
import TabStore.Proofs.Files.Faults
import TabStore.Proofs.Table.Messages
import TabStore.Proofs.Engine.Messages
import TabStore.Proofs.Memory.Answers
import TabStore.Proofs.Conversation.Input
import TabStore.Proofs.Conversation.Replies
import TabStore.Proofs.Table.RoundTrip
import TabStore.Proofs.Table.Altered
import TabStore.Proofs.Table.Joined
import TabStore.Proofs.Statement.Tokens
import TabStore.Proofs.Literal.Denoted
import TabStore.Proofs.Table.Keyed
