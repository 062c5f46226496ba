import ShowControl.Controller.ClientRun
import ShowControl.Main
import ShowControl.Proofs.Registry.Isolation
import ShowControl.Proofs.Renderer.Acceptance
import ShowControl.Proofs.Renderer.Recall
import ShowControl.Proofs.Rig.Broadcast
import ShowControl.Proofs.Message.Grammar
import ShowControl.Proofs.Message.Readout
import ShowControl.Proofs.Controller.Hearing
import ShowControl.Proofs.Controller.Correlation
import ShowControl.Proofs.Controller.Outcome
import ShowControl.Proofs.Json.Size
import ShowControl.Proofs.Message.Quoting
import ShowControl.Proofs.Renderer.Answerable
import ShowControl.Proofs.Controller.Waiting
import ShowControl.Proofs.Renderer.Establishment
import ShowControl.Proofs.Renderer.Turns
import ShowControl.Proofs.Registry.TooLarge
import ShowControl.Proofs.Message.LineEnd
import ShowControl.Proofs.Scene.FirstFault
import ShowControl.Proofs.Registry.Turnover
import ShowControl.Proofs.Controller.Connection
import ShowControl.Proofs.Text.Digits
import ShowControl.Proofs.Address.Ip
import ShowControl.Proofs.Server.Config
import ShowControl.Proofs.Frame.Calls
import ShowControl.Proofs.Registry.Reporting
import ShowControl.Proofs.Message.Limit
import ShowControl.Proofs.Server.Console
import ShowControl.Proofs.Scene.Levels
import ShowControl.Proofs.Scene.Configuration
import ShowControl.Proofs.Address.HostPort
import ShowControl.Proofs.Message.OneLine
