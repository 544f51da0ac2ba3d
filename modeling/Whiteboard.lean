import Whiteboard.Audit.Document
import Whiteboard.Audit.Report
import Whiteboard.Chain.Compilation
import Whiteboard.CommandLine.Run
import Whiteboard.Drawing.RandomIds
import Whiteboard.Drawing.Reading
import Whiteboard.Drawing.Wire
import Whiteboard.Main
import Whiteboard.Settings.EnvFile
import Whiteboard.Workspace.Memory
import Whiteboard.Proofs.Text.Trim
import Whiteboard.Proofs.Chain.Splitting
import Whiteboard.Proofs.Chain.Rows
import Whiteboard.Proofs.Drawing.Issued
import Whiteboard.Proofs.Drawing.Appearance
import Whiteboard.Proofs.Drawing.Connecting
import Whiteboard.Proofs.Drawing.Finite
import Whiteboard.Proofs.Chain.Picture
import Whiteboard.Proofs.Chain.Depiction
import Whiteboard.Proofs.Chain.Drawn
import Whiteboard.Proofs.Chain.Elements
import Whiteboard.Proofs.Chain.Attachments
import Whiteboard.Proofs.Audit.Records
import Whiteboard.Proofs.Audit.WireForm
import Whiteboard.Proofs.Audit.References
import Whiteboard.Proofs.Audit.WireDocument
import Whiteboard.Proofs.Chain.Audited
import Whiteboard.Proofs.Chain.Rendering
import Whiteboard.Proofs.Audit.Format
import Whiteboard.Proofs.Number.Counting
import Whiteboard.Proofs.Json.Numerals
import Whiteboard.Proofs.Json.Strings
import Whiteboard.Proofs.Json.Trees
import Whiteboard.Proofs.Json.Reading
import Whiteboard.Proofs.Json.Decoding
import Whiteboard.Proofs.Drawing.Encoded
import Whiteboard.Proofs.Drawing.Decoding
import Whiteboard.Proofs.Drawing.Decoded
import Whiteboard.Proofs.Number.Tenths
import Whiteboard.Proofs.Number.Hundredths
import Whiteboard.Proofs.Drawing.Reread
import Whiteboard.Proofs.Drawing.RoundTrip
import Whiteboard.Proofs.Drawing.Places
import Whiteboard.Proofs.Drawing.Linked
import Whiteboard.Proofs.Drawing.Editing
import Whiteboard.Proofs.Drawing.Rebinding
import Whiteboard.Proofs.Workspace.Memory
import Whiteboard.Proofs.Workspace.Unreliable
import Whiteboard.Proofs.Workspace.Committing
import Whiteboard.Proofs.Drawing.Kept
import Whiteboard.Proofs.Drawing.Refused
import Whiteboard.Proofs.Workspace.Reopening
import Whiteboard.Proofs.Workspace.Succeeding
import Whiteboard.Proofs.Workspace.Calls
import Whiteboard.Proofs.Audit.Distinct
import Whiteboard.Proofs.Audit.Fields
import Whiteboard.Proofs.Audit.Notes
import Whiteboard.Proofs.Audit.Reported
import Whiteboard.Proofs.Drawing.Draws
import Whiteboard.Proofs.Drawing.Opacity
import Whiteboard.Proofs.Drawing.Mutation
import Whiteboard.Proofs.Drawing.Lifecycle
import Whiteboard.Proofs.Workspace.Untouched
import Whiteboard.Proofs.Audit.Restated
import Whiteboard.Proofs.Chain.Overlaps
import Whiteboard.Proofs.CommandLine.Precedence
import Whiteboard.Proofs.Drawing.Connected
import Whiteboard.Proofs.Drawing.Slots
import Whiteboard.Proofs.Drawing.Aspects
import Whiteboard.Proofs.Drawing.Overlay
import Whiteboard.Proofs.Drawing.AspectForms
import Whiteboard.Proofs.Drawing.WireOverlay
import Whiteboard.Proofs.Drawing.Recreated
import Whiteboard.Proofs.Drawing.Routes
import Whiteboard.Proofs.Drawing.Created
import Whiteboard.Proofs.Audit.Parts
import Whiteboard.Proofs.Audit.Resolution
import Whiteboard.Proofs.Drawing.Tracks
import Whiteboard.Proofs.Chain.Runs
import Whiteboard.Proofs.Chain.Labels
import Whiteboard.Proofs.Text.Lines
import Whiteboard.Proofs.Audit.Quoted
import Whiteboard.Proofs.Json.OneLine
import Whiteboard.Proofs.Audit.Rows
import Whiteboard.Proofs.Number.Whole
import Whiteboard.Proofs.Settings.Spellings
import Whiteboard.Proofs.Text.Digits
import Whiteboard.Proofs.Text.Runs
import Whiteboard.Proofs.Geometry.Exact
import Whiteboard.Proofs.Geometry.Enclosing
import Whiteboard.Proofs.Drawing.TextSize
import Whiteboard.Proofs.Drawing.Numbered
