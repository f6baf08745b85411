import AnsweringMachine.Application.Desk
import AnsweringMachine.Application.Isolation
import AnsweringMachine.Application.Listener
import AnsweringMachine.Application.Playback
import AnsweringMachine.Application.Provider
import AnsweringMachine.Application.Refinement
import AnsweringMachine.Application.Release
import AnsweringMachine.Application.Replacement
import AnsweringMachine.Application.Script
import AnsweringMachine.Application.Sessions
import AnsweringMachine.Application.TurnedAway
import AnsweringMachine.Application.Wiring
import AnsweringMachine.Application.World
import AnsweringMachine.CallControl.Announcement
import AnsweringMachine.CallControl.Answer
import AnsweringMachine.CallControl.Automaton
import AnsweringMachine.CallControl.Chronicle
import AnsweringMachine.CallControl.Conversation
import AnsweringMachine.CallControl.Courses
import AnsweringMachine.CallControl.Endings
import AnsweringMachine.CallControl.Forwarding
import AnsweringMachine.CallControl.Handlers
import AnsweringMachine.CallControl.Lifetime
import AnsweringMachine.CallControl.Logging
import AnsweringMachine.CallControl.Machine
import AnsweringMachine.CallControl.Manager
import AnsweringMachine.CallControl.Moves
import AnsweringMachine.CallControl.Operations
import AnsweringMachine.CallControl.Outgoing
import AnsweringMachine.CallControl.Pending
import AnsweringMachine.CallControl.Refusals
import AnsweringMachine.CallControl.Reports
import AnsweringMachine.CallControl.Subscriber
import AnsweringMachine.CallControl.TalkTime
import AnsweringMachine.CallControl.Timers
import AnsweringMachine.CallControl.UnderWay
import AnsweringMachine.CallControl.WellFormed
import AnsweringMachine.CallLog.File
import AnsweringMachine.CallLog.Stack
import AnsweringMachine.Configuration.Accounts
import AnsweringMachine.Configuration.Comments
import AnsweringMachine.Configuration.DayTexts
import AnsweringMachine.Configuration.Evaluation
import AnsweringMachine.Configuration.Triggers
import AnsweringMachine.Library.Dictionary
import AnsweringMachine.Library.Outcome
import AnsweringMachine.Library.Recency
import AnsweringMachine.Library.Runs
import AnsweringMachine.Library.SelectionSort
import AnsweringMachine.Library.Text
import AnsweringMachine.Library.Windows
import AnsweringMachine.Library.Xml
import AnsweringMachine.Library.XmlComments
import AnsweringMachine.Media.Clock
import AnsweringMachine.Media.CodecChoice
import AnsweringMachine.Media.CodecManager
import AnsweringMachine.Media.Completion
import AnsweringMachine.Media.Conference
import AnsweringMachine.Media.Playback
import AnsweringMachine.Media.UserAgent
import AnsweringMachine.Media.WavPlayer
import AnsweringMachine.Sip.CallTable
import AnsweringMachine.Sip.Contact
import AnsweringMachine.Sip.InviteSession
import AnsweringMachine.Sip.Registrar
import AnsweringMachine.Sip.Results
import AnsweringMachine.Utils.CommandLine
